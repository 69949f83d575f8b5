import GlobalMetadata.Graph
import GlobalMetadata.Proofs.OrderIndependence
import GlobalMetadata.Proofs.Ranges

/-!
# A definition fails alone

Two sets of metadata that differ only in where the members of one definition are have graphs that
differ only in that definition, in its instantiations, and in instantiations that nothing else asks
for.

The members of the definition at hand decide what else is created and when, so that the two runs
have little in common while they last. What they come to is compared instead: a run within the limit
on chains comes to what the metadata says (`Resolver.outcome_of_runsTo`), and that is the same for
both, apart from the definition. `Metadata.ReachesApart` are the keys that a run comes to without
its members. Every definition is among them, so that no other definition is lost
(`Resolver.agree_withRanges`).

An instantiation that only the members of the definition ask for *is* lost with them, whatever it
instantiates. `Resolver.boxed_lost` is an example.
-/

namespace GlobalMetadata

/-! ### What a graph shows -/

namespace TypeGraph

/-- A graph has a class that stands for this one. -/
def Shows (graph : TypeGraph) (t : ClassTerm) : Prop :=
  ∃ id c, graph.class? id = some c ∧ graph.arena.classTerm? c = some t

/-- Neither graph has a class for a key, or both have one and the two stand for the same. -/
def Agree (graph graph' : TypeGraph) (key : ClassKey) : Prop :=
  Option.Rel (fun id id' => ∃ c c' t, graph.class? id = some c ∧ graph'.class? id' = some c' ∧
    c.isResolved = c'.isResolved ∧ graph.arena.classTerm? c = some t ∧
      graph'.arena.classTerm? c' = some t) (graph.lookup key) (graph'.lookup key)

end TypeGraph

namespace Arena

variable {arena : Arena}

theorem keyTerm?_of_classTerm? {c : ResolvedClass} {t : ClassTerm}
    (h : arena.classTerm? c = some t) : arena.keyTerm? c.key = some t.key := by
  obtain ⟨key, h_key, h⟩ := Option.bind_eq_some_iff.mp h
  obtain ⟨declaring, -, h⟩ := Option.bind_eq_some_iff.mp h
  obtain ⟨genericArgs, -, h⟩ := Option.bind_eq_some_iff.mp h
  obtain ⟨members, -, h⟩ := Option.bind_eq_some_iff.mp h
  cases h
  exact h_key

theorem isResolved_of_classTerm? {c : ResolvedClass} {t : ClassTerm}
    (h : arena.classTerm? c = some t) : c.isResolved = t.members.isSome := by
  obtain ⟨key, -, h⟩ := Option.bind_eq_some_iff.mp h
  obtain ⟨declaring, -, h⟩ := Option.bind_eq_some_iff.mp h
  obtain ⟨genericArgs, -, h⟩ := Option.bind_eq_some_iff.mp h
  obtain ⟨members, h_members, h⟩ := Option.bind_eq_some_iff.mp h
  cases h
  -- members are read as members, and none as none
  rw [ResolvedClass.isResolved]
  cases h_c : c.members with
  | none =>
    rw [h_c] at h_members
    cases h_members
    rfl
  | some _ =>
    rw [h_c] at h_members
    obtain ⟨_, -, h_members⟩ := Option.map_eq_some_iff.mp h_members
    cases h_members
    rfl

theorem keyTerm?_ofDefinition_iff {key : ClassKey} {e : Nat} :
    arena.keyTerm? key = some (.ofDefinition e) ↔ key = .ofDefinition e := by
  constructor
  · intro h
    obtain ⟨classArgs, h_class, h⟩ := Option.bind_eq_some_iff.mp h
    obtain ⟨methodArgs, h_method, h⟩ := Option.bind_eq_some_iff.mp h
    have h_same := KeyTerm.ext_iff.mp (Option.some.inj h)
    -- only no arguments at all are read as none
    have h_none {ids : List TypeId} (h_ids : ids.mapM arena.term? = some []) : ids = [] := by
      cases ids with
      | nil => rfl
      | cons id ids =>
        rw [List.mapM_cons] at h_ids
        obtain ⟨t, -, h_ids⟩ := Option.bind_eq_some_iff.mp h_ids
        obtain ⟨ts, -, h_ids⟩ := Option.bind_eq_some_iff.mp h_ids
        cases h_ids
    obtain ⟨h_definition, rfl, rfl⟩ := h_same
    exact ClassKey.ext h_definition (h_none h_class) (h_none h_method)
  · rintro rfl
    rfl

end Arena

/-! ### What a run comes to without some members -/

namespace Metadata

/-- The keys that a run comes to if it does not look at the members of one definition, nor at those
of its instantiations. -/
inductive ReachesApart (m : Metadata) (config : Config) (d : Nat) : KeyTerm → Prop
  /-- The key of a definition. -/
  | definition {definition : Nat} {lineage : Lineage} (traces : m.Traces definition lineage) :
      ReachesApart m config d (.ofDefinition definition)
  /-- A key that a listed instantiation asks for. -/
  | listed {entry : Nat × Nat} {k : KeyTerm} (visited : entry ∈ m.listings config)
      (asked : k ∈ (m.listedMeaning config entry).demands) : ReachesApart m config d k
  /-- A key that the members of a class of another definition ask for. -/
  | member {owner k : KeyTerm} (reached : ReachesApart m config d owner)
      (other : owner.definition ≠ d) (asked : k ∈ (m.membersMeaning config owner).demands) :
      ReachesApart m config d k

variable {m : Metadata} {config : Config} {d : Nat} {ranges : MemberRanges} {k : KeyTerm}

theorem ReachesApart.reaches (h : m.ReachesApart config d k) : m.Reaches config k := by
  induction h with
  | definition h_traces => exact .definition h_traces
  | listed h_visited h_asked => exact .listed h_visited h_asked
  | member _ _ h_asked ih => exact .member ih h_asked

/-- **The same keys are reached** wherever the members of the definition are. By induction on how a
run comes to them, since no step looks at the members of the definition. -/
theorem ReachesApart.withRanges (h : m.ReachesApart config d k) :
    (m.withRanges d ranges).ReachesApart config d k := by
  induction h with
  | definition h_traces => exact .definition h_traces.withRanges
  | @listed entry k h_visited h_asked =>
    have h_same : (m.withRanges d ranges).listedMeaning config entry =
        m.listedMeaning config entry := listedMeaning_withRanges config entry
    rw [← h_same] at h_asked
    exact .listed h_visited h_asked
  | @member owner k _ h_other h_asked ih =>
    have h_same : (m.withRanges d ranges).membersMeaning config owner =
        m.membersMeaning config owner := membersMeaning_withRanges config h_other
    rw [← h_same] at h_asked
    exact .member ih h_other h_asked

theorem ChainsInLimit.withRanges (h : m.ChainsInLimit) : (m.withRanges d ranges).ChainsInLimit := by
  intro definition lineage' h_traces'
  obtain ⟨lineage, h_traces, rfl⟩ := traces_withRanges_iff.mp h_traces'
  rw [Lineage.length_withRanges]
  exact h definition lineage h_traces

end Metadata

namespace Resolver

variable {m : Metadata} {config : Config} {final final' : Resolver} {d : Nat}
  {ranges : MemberRanges}

/-- Within the limit, a graph shows what the metadata says about the keys that a run comes to. -/
theorem shows_iff (h_limit : m.ChainsInLimit) (h : RunsTo m config final) {t : ClassTerm} :
    (final.toGraph m).Shows t ↔ ∃ lineage, m.Reaches config t.key ∧
      m.Traces t.key.definition lineage ∧ t = m.classTerm config t.key lineage := by
  have h_classes : final.outcome.classes = (m.outcome config).classes := by
    rw [outcome_of_runsTo h_limit h]
  -- a graph shows what the outcome of its run has
  have h_shows : (final.toGraph m).Shows t ↔ some t ∈ final.outcome.classes := by
    refine exists_congr fun id => exists_congr fun c => and_congr_right fun _ => ?_
    exact eq_comm
  rw [h_shows, h_classes]
  constructor
  · rintro ⟨k, lineage, h_reaches, h_traces, h_t⟩
    obtain rfl := Option.some.inj h_t
    exact ⟨lineage, h_reaches, h_traces, rfl⟩
  · rintro ⟨lineage, h_reaches, h_traces, h_t⟩
    exact ⟨t.key, lineage, h_reaches, h_traces, congrArg some h_t⟩

theorem exists_classTerm? (h_limit : m.ChainsInLimit) (h : RunsTo m config final) {id : ClassId}
    {c : ResolvedClass} (h_c : final.arena.class? id = some c) :
    ∃ t, final.arena.classTerm? c = some t := by
  have h_mem : final.arena.classTerm? c ∈ (m.outcome config).classes := by
    rw [← outcome_of_runsTo h_limit h]
    exact ⟨id, c, h_c, rfl⟩
  obtain ⟨k, lineage, -, -, h_t⟩ := h_mem
  exact ⟨_, h_t⟩

/-- **What is reached without the definition is shown the same.** -/
theorem shows_withRanges_iff (h_limit : m.ChainsInLimit) (h : RunsTo m config final)
    (h' : RunsTo (m.withRanges d ranges) config final') {t : ClassTerm}
    (h_other : t.key.definition ≠ d) (h_apart : m.ReachesApart config d t.key) :
    (final.toGraph m).Shows t ↔ (final'.toGraph (m.withRanges d ranges)).Shows t := by
  rw [shows_iff h_limit h, shows_iff h_limit.withRanges h']
  constructor
  · rintro ⟨lineage, -, h_traces, h_t⟩
    refine ⟨lineage.withRanges d ranges, h_apart.withRanges.reaches, h_traces.withRanges, ?_⟩
    rw [Metadata.classTerm_withRanges config h_other]
    exact h_t
  · rintro ⟨lineage', -, h_traces', h_t⟩
    obtain ⟨lineage, h_traces, rfl⟩ := Metadata.traces_withRanges_iff.mp h_traces'
    rw [Metadata.classTerm_withRanges config h_other] at h_t
    exact ⟨lineage, h_apart.reaches, h_traces, h_t⟩

/-- **Other definitions are shown the same**, since each of them is reached by itself. -/
theorem shows_definition_iff (h_limit : m.ChainsInLimit) (h : RunsTo m config final)
    (h' : RunsTo (m.withRanges d ranges) config final') {e : Nat} (h_e : e ≠ d) {t : ClassTerm}
    (h_key : t.key = .ofDefinition e) :
    (final.toGraph m).Shows t ↔ (final'.toGraph (m.withRanges d ranges)).Shows t := by
  have h_other : t.key.definition ≠ d := by
    rw [h_key]
    exact h_e
  -- a definition with a chain is reached without any members
  have h_apart {lineage : Lineage} (h_traces : m.Traces t.key.definition lineage) :
      m.ReachesApart config d t.key := by
    rw [h_key] at h_traces ⊢
    exact .definition h_traces
  constructor
  · intro h_t
    obtain ⟨lineage, -, h_traces, -⟩ := (shows_iff h_limit h).mp h_t
    exact (shows_withRanges_iff h_limit h h' h_other (h_apart h_traces)).mp h_t
  · intro h_t
    -- its chain after is that of before
    obtain ⟨lineage', -, h_traces', -⟩ := (shows_iff h_limit.withRanges h').mp h_t
    obtain ⟨lineage, h_traces, -⟩ := Metadata.traces_withRanges_iff.mp h_traces'
    exact (shows_withRanges_iff h_limit h h' h_other (h_apart h_traces)).mpr h_t

theorem exists_shown_of_find? (h_limit : m.ChainsInLimit) (h : RunsTo m config final) {e : Nat}
    {id : ClassId} (h_found : final.arena.find? (.ofDefinition e) = some id) :
    ∃ c t, final.arena.class? id = some c ∧ final.arena.classTerm? c = some t ∧
      t.key = .ofDefinition e := by
  obtain ⟨c, h_c, h_key⟩ := Arena.find?_eq_some_iff.mp h_found
  obtain ⟨t, h_t⟩ := exists_classTerm? h_limit h h_c
  have h_term := Arena.keyTerm?_of_classTerm? h_t
  rw [Arena.keyTerm?_ofDefinition_iff.mpr h_key] at h_term
  exact ⟨c, t, h_c, h_t, (Option.some.inj h_term).symm⟩

theorem exists_find?_of_shows {e : Nat} {t : ClassTerm} (h : (final.toGraph m).Shows t)
    (h_key : t.key = .ofDefinition e) :
    ∃ id c, final.arena.find? (.ofDefinition e) = some id ∧ final.arena.class? id = some c ∧
      final.arena.classTerm? c = some t := by
  obtain ⟨id, c, h_c, h_t⟩ := h
  have h_term := Arena.keyTerm?_of_classTerm? h_t
  rw [h_key] at h_term
  exact ⟨id, c, Arena.find?_eq_some_iff.mpr ⟨c, h_c, Arena.keyTerm?_ofDefinition_iff.mp h_term⟩,
    h_c, h_t⟩

/-- **Other definitions come out the same.** -/
theorem agree_withRanges (h_limit : m.ChainsInLimit) (h : RunsTo m config final)
    (h' : RunsTo (m.withRanges d ranges) config final') {e : Nat} (h_e : e ≠ d) :
    (final.toGraph m).Agree (final'.toGraph (m.withRanges d ranges)) (.ofDefinition e) := by
  unfold TypeGraph.Agree
  show Option.Rel _ (final.arena.find? (.ofDefinition e)) (final'.arena.find? (.ofDefinition e))
  cases h_found : final.arena.find? (.ofDefinition e) with
  | none =>
    cases h_found' : final'.arena.find? (.ofDefinition e) with
    | none => exact .none
    | some id' =>
      -- the first graph would have to show what the second one does
      obtain ⟨c', t, h_c', h_t, h_key⟩ := exists_shown_of_find? h_limit.withRanges h' h_found'
      have h_shown := (shows_definition_iff h_limit h h' h_e h_key).mpr ⟨id', c', h_c', h_t⟩
      obtain ⟨id, c, h_some, -⟩ := exists_find?_of_shows h_shown h_key
      rw [h_found] at h_some
      cases h_some
  | some id =>
    obtain ⟨c, t, h_c, h_t, h_key⟩ := exists_shown_of_find? h_limit h h_found
    have h_shown := (shows_definition_iff h_limit h h' h_e h_key).mp ⟨id, c, h_c, h_t⟩
    obtain ⟨id', c', h_found', h_c', h_t'⟩ := exists_find?_of_shows h_shown h_key
    rw [h_found']
    refine .some ⟨c, c', t, h_c, h_c', ?_, h_t, h_t'⟩
    rw [Arena.isResolved_of_classTerm? h_t, Arena.isResolved_of_classTerm? h_t']

end Resolver

/-! ### A definition in a box -/

/-- Two definitions, of which the second one has a generic parameter. The only field there is
belongs to the first one, and its type is the second one with an integer put in. -/
def Metadata.boxed : Metadata :=
  { Metadata.bare with
    strings := nestStrings
    typeDefinitions := #[
      { nestedRow none with fieldStart := 0, fieldCount := 1 },
      { nestedRow none with genericContainerIndex := some 0 }]
    fields := #[⟨0, some 0, none⟩]
    genericContainers := #[⟨1, 1, false, some 0⟩]
    genericParameters := #[⟨0, 0, 0, 0, 0, 0⟩]
    registration :=
      { Metadata.bare.registration with
        image :=
          { format := .flat
            data := ⟨#[
              -- an instantiation of definition 1, with the arguments at 0x1010
              1, 0, 0, 0, 0x10, 0x10, 0, 0, 0, 0, 0, 0, 0, 0, 0, 0,
              -- one argument, the address of which is at 0x1018
              1, 0, 0, 0, 0x18, 0x10, 0, 0,
              -- the address of the argument
              0x20, 0, 0, 0]⟩
            segments := [⟨0x1000, 0, 28⟩]
            pointerWidth := .bits32
            endian := .little }
        types := #[⟨0, .genericInst, 0, false, false, .instantiation 0x1000⟩,
          ⟨0, .i4, 0, false, false, .none⟩]
        typeAddresses := #[0x10, 0x20]
        layouts := ⟨boxedLayout .typeDescriptor, boxedLayout .genericClass,
          boxedLayout .genericInst, boxedLayout .arrayType⟩ } }

namespace Metadata

/-- The first definition of `boxed` without its field, which is not in the table any more. -/
def boxedElsewhere : Metadata :=
  boxed.withRanges 0 ⟨1, 1, 0, 0, 0, 0⟩

/-- An instantiation of the second definition. -/
def boxedKey : KeyTerm :=
  ⟨1, [.primitive .i4], []⟩

theorem chainsInLimit_boxed : boxed.ChainsInLimit :=
  chainsInLimit_of_size_le (by decide)

/-- Without the field nothing but definitions is reached. -/
theorem reaches_boxedElsewhere {k : KeyTerm} (h : boxedElsewhere.Reaches .minimal k) :
    k = .ofDefinition 0 ∨ k = .ofDefinition 1 := by
  induction h with
  | @definition definition lineage h_traces =>
    -- there are no others
    have h_size : boxedElsewhere.typeDefinitions.size = 2 := rfl
    have h_lt := h_traces.lt_size
    rw [h_size] at h_lt
    obtain rfl | rfl : definition = 0 ∨ definition = 1 := by omega
    · exact .inl rfl
    · exact .inr rfl
  | listed h_visited _ => exact absurd h_visited List.not_mem_nil
  | member _ h_asked ih =>
    -- neither of the two asks for anything
    have h_none : ∀ d < 2,
        (boxedElsewhere.membersMeaning .minimal (.ofDefinition d)).demands = [] := by
      decide +kernel
    rcases ih with rfl | rfl
    · rw [h_none 0 (by decide)] at h_asked
      exact absurd h_asked List.not_mem_nil
    · rw [h_none 1 (by decide)] at h_asked
      exact absurd h_asked List.not_mem_nil

theorem exists_traces_boxed : ∀ d < 2, ∃ lineage, boxed.Traces d lineage := by
  have h_some : ∀ d < 2, (boxed.lineage d).toOption.isSome = true := by decide +kernel
  intro d h_d
  cases h_lineage : boxed.lineage d with
  | ok lineage => exact ⟨lineage, lineage_eq_ok_iff.mp h_lineage⟩
  | error e =>
    have h_none := h_some d h_d
    rw [h_lineage] at h_none
    cases h_none

end Metadata

/-! ### Isolation -/

namespace Resolver

/-- **Isolation.** Let no chain be too long, and let the members of one definition be somewhere
else, be it outside of their tables. The graphs before and after, of the program or of a run in any
order, agree about every other definition; and they show the same of every instantiation of another
definition that a run comes to without the members of the definition and of its instantiations. -/
theorem failures_isolated (m : Metadata) (config : Config) (d : Nat) (ranges : MemberRanges)
    (h_limit : m.ChainsInLimit) :
    let m' := m.withRanges d ranges
    (RunsTo m config (Resolver.empty.run m config) ∧
      RunsTo m' config (Resolver.empty.run m' config)) ∧
    ∀ final final', RunsTo m config final → RunsTo m' config final' →
      (∀ e, e ≠ d → (final.toGraph m).Agree (final'.toGraph m') (.ofDefinition e)) ∧
      ∀ t : ClassTerm, t.key.definition ≠ d → m.ReachesApart config d t.key →
        ((final.toGraph m).Shows t ↔ (final'.toGraph m').Shows t) := by
  intro m'
  refine ⟨⟨runsTo_run m config, runsTo_run m' config⟩, fun final final' h h' => ⟨?_, ?_⟩⟩
  · intro e h_e
    exact agree_withRanges h_limit h h' h_e
  · intro t h_other h_apart
    exact shows_withRanges_iff h_limit h h' h_other h_apart

/-- The second definition of `boxed` is not lost. -/
theorem failures_isolated_boxed :
    Metadata.boxed.ChainsInLimit ∧ (TypeGraph.build Metadata.boxed .minimal).Agree
      (TypeGraph.build Metadata.boxedElsewhere .minimal) (.ofDefinition 1) := by
  have h_limit := Metadata.chainsInLimit_boxed
  obtain ⟨⟨h_run, h_run'⟩, h_runs⟩ :=
    failures_isolated Metadata.boxed .minimal 0 ⟨1, 1, 0, 0, 0, 0⟩ h_limit
  obtain ⟨h_agree, -⟩ := h_runs _ _ h_run h_run'
  exact ⟨h_limit, h_agree 1 (by decide)⟩

/-- **More than the definition is lost.** The graph of `boxed` has a resolved instantiation of the
second definition. It is lost when the members of the first one are outside of their table. -/
theorem boxed_lost :
    (∃ e, Metadata.memberRows .field Metadata.boxedElsewhere.fields 1 1 = .error e) ∧
      Metadata.boxed.ChainsInLimit ∧ Metadata.boxedKey.definition ≠ 0 ∧
      (∃ t, t.key = Metadata.boxedKey ∧ t.members.isSome = true ∧
        (TypeGraph.build Metadata.boxed .minimal).Shows t) ∧
      ∀ t, (TypeGraph.build Metadata.boxedElsewhere .minimal).Shows t →
        t.key ≠ Metadata.boxedKey := by
  have h_limit := Metadata.chainsInLimit_boxed
  refine ⟨⟨_, rfl⟩, h_limit, by decide, ?_, ?_⟩
  · obtain ⟨lineage, h_traces⟩ := Metadata.exists_traces_boxed 0 (by decide)
    obtain ⟨lineage', h_traces'⟩ := Metadata.exists_traces_boxed 1 (by decide)
    -- the field of the first definition asks for the instantiation, which has members
    have h_asked : Metadata.boxedKey ∈
        (Metadata.boxed.membersMeaning .minimal (.ofDefinition 0)).demands := by
      decide +kernel
    have h_members : (Metadata.boxed.membersMeaning .minimal Metadata.boxedKey).value.isSome =
        true := by
      decide +kernel
    refine ⟨Metadata.boxed.classTerm .minimal Metadata.boxedKey lineage', rfl, h_members, ?_⟩
    have h_reaches := Metadata.Reaches.member (.definition h_traces) h_asked
    have h_run := runsTo_run Metadata.boxed .minimal
    exact (shows_iff h_limit h_run).mpr ⟨lineage', h_reaches, h_traces', rfl⟩
  · intro t h_t h_key
    -- afterwards nothing does
    have h_run := runsTo_run Metadata.boxedElsewhere .minimal
    obtain ⟨lineage, h_reaches, -⟩ := (shows_iff h_limit.withRanges h_run).mp h_t
    rw [h_key] at h_reaches
    rcases Metadata.reaches_boxedElsewhere h_reaches with h_plain | h_plain
    · cases h_plain
    · cases h_plain

end Resolver

end GlobalMetadata
