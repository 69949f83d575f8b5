import GlobalMetadata.Proofs.Precedence
import GlobalMetadata.Proofs.Rerun
import GlobalMetadata.Proofs.Storage

/-!
# Members are published at once

A class keeps its members in four cells, one each for the underlying type, the nested classes, the
fields and the methods. Each cell can be set once. Completing a class writes them one after the
other, and writes the first one only if there is an underlying type (`Cells.write`). So it is not
plain that the four belong together: a class may be completed any number of times, and a completion
that finds three cells set could still set the fourth.

It never does. `CellState` is a resolver together with the cells of its classes, and
`CellState.Step` says what callers and the visits of a run do to both. By induction on the steps
(`CellState.Kept`), the cells are those of the members that the classes of the arena have or do not
have (`Arena.cells`). What carries the induction is that whether there is an underlying type depends
on the class alone (`Arena.Means.underlying_iff`), and that a class which was completed can be
completed again (`Resolving.Completed`), so that no completion fails where members were published.

`CellState.Published` is what follows for the cells, for the references in them and for runs. The
main result is `CellState.published_at_once`.
-/

namespace GlobalMetadata

open Relation

/-! ### Cells -/

/-- Sets a cell, unless it was set before. -/
def setOnce {α : Type} (cell : Option α) (a : α) : Option α :=
  cell <|> some a

/-- What a field refers to. -/
def ResolvedField.refs (f : ResolvedField) : List Node :=
  [.type f.type, .class f.declaring]

/-- What a method refers to. -/
def ResolvedMethod.refs (f : ResolvedMethod) : List Node :=
  .type f.returnType :: .class f.declaring :: f.parameters.map (.type ·.type)

/-- What a class has in place of its members. -/
structure Cells where
  /-- The underlying type of an enumeration. -/
  underlying : Option TypeId
  nested : Option (List ClassId)
  fields : Option (List ResolvedField)
  methods : Option (List ResolvedMethod)
  deriving DecidableEq, Repr

namespace Cells

/-- The cells of a new class. -/
def unset : Cells :=
  ⟨none, none, none, none⟩

/-- Sets the cell of the underlying type if there is one, and then the other ones. -/
def write (cells : Cells) (members : Members) : Cells :=
  let cells :=
    match members.underlying with
    | some type => { cells with underlying := setOnce cells.underlying type }
    | none => cells
  let cells := { cells with nested := setOnce cells.nested members.nested }
  let cells := { cells with fields := setOnce cells.fields members.fields }
  { cells with methods := setOnce cells.methods members.methods }

/-- Everything that the cells refer to. -/
def refs (cells : Cells) : List Node :=
  cells.underlying.toList.map .type ++ (cells.nested.getD []).map .class ++
    (cells.fields.getD []).flatMap (·.refs) ++ (cells.methods.getD []).flatMap (·.refs)

/-- Whatever is set is set to the same later on. -/
structure KeptIn (cells later : Cells) : Prop where
  underlying : ∀ type, cells.underlying = some type → later.underlying = some type
  nested : ∀ ids, cells.nested = some ids → later.nested = some ids
  fields : ∀ fields, cells.fields = some fields → later.fields = some fields
  methods : ∀ methods, cells.methods = some methods → later.methods = some methods

end Cells

/-- The cells of a class as they should be: all of them hold what the members are, if there are
any. -/
def ResolvedClass.cells (c : ResolvedClass) : Cells where
  underlying := c.members >>= (·.underlying)
  nested := c.members.map (·.nested)
  fields := c.members.map (·.fields)
  methods := c.members.map (·.methods)

namespace ResolvedClass

variable {c c' : ResolvedClass} {members : Members}

theorem cells_of_none (h : c.members = none) : c.cells = .unset := by
  rw [cells, h]
  rfl

theorem cells_of_some (h : c.members = some members) :
    c.cells = ⟨members.underlying, some members.nested, some members.fields,
      some members.methods⟩ := by
  rw [cells, h]
  rfl

theorem members_of_cells (h : c.cells = .unset) : c.members = none := by
  cases h_members : c.members with
  | none => rfl
  | some members =>
    rw [cells_of_some h_members] at h
    have h_nested : some members.nested = none := congrArg Cells.nested h
    cases h_nested

/-- **Publishing members is writing the cells**, if there is an underlying type now exactly when
there was one before. -/
theorem cells_publish (h : ∀ old, c.members = some old →
      old.underlying.isSome = members.underlying.isSome) :
    (c.publish members).cells = c.cells.write members := by
  cases h_old : c.members with
  | none =>
    rw [cells_of_none h_old, cells_of_some (members_publish_of_none h_old members), Cells.write]
    cases members.underlying <;> rfl
  | some old =>
    rw [cells_of_some h_old, cells_of_some (members_publish_of_some h_old members), Cells.write]
    have h_same := h old h_old
    -- no cell is empty that is written
    cases h_now : members.underlying with
    | none => rfl
    | some type =>
      rw [h_now] at h_same
      obtain ⟨before, h_before⟩ := Option.isSome_iff_exists.mp h_same
      rw [h_before]
      rfl

theorem GrowsTo.cells_kept (h : c.GrowsTo c') : c.cells.KeptIn c'.cells := by
  cases h_members : c.members with
  | none =>
    rw [cells_of_none h_members]
    constructor <;> intro _ h_set <;> cases h_set
  | some members =>
    rw [cells_of_some h_members, cells_of_some (h.members members h_members)]
    constructor <;> intro _ h_set <;> exact h_set

end ResolvedClass

namespace Arena

/-- The cells of all classes as they should be. -/
def cells (arena : Arena) (id : ClassId) : Cells :=
  (arena.class? id).elim .unset (·.cells)

variable {m : Metadata} {config : Config} {arena arena' : Arena} {id : ClassId}
  {c : ResolvedClass}

theorem cells_of_class? (h : arena.class? id = some c) : arena.cells id = c.cells := by
  rw [cells, h]
  rfl

theorem cells_of_not_hasClass (h : ¬ arena.HasClass id) : arena.cells id = .unset := by
  have h_none : arena.class? id = none :=
    Option.eq_none_iff_forall_ne_some.mpr fun c h_c => h (hasClass_iff.mpr ⟨c, h_c⟩)
  rw [cells, h_none]
  rfl

/-- Publishing changes the cells of one class. -/
theorem cells_publish (h : arena.class? id = some c) (members : Members) :
    (arena.publish id members).cells =
      Function.update arena.cells id (c.publish members).cells := by
  funext other
  rw [cells, class?_publish]
  by_cases h_other : id = other
  · subst h_other
    rw [if_pos rfl, h, Function.update_self]
    rfl
  · rw [if_neg h_other, Function.update_of_ne (Ne.symm h_other)]
    rfl

/-- Nothing is written when bare classes are added. -/
theorem AddsBare.cells_eq (h : arena.AddsBare arena') : arena'.cells = arena.cells := by
  funext id
  by_cases h_id : arena'.HasClass id
  · obtain ⟨c, h_c⟩ := hasClass_iff.mp h_id
    rcases h.frame id c h_c with h_old | ⟨h_new, h_bare⟩
    · rw [cells_of_class? h_c, cells_of_class? h_old]
    · rw [cells_of_class? h_c, cells_of_not_hasClass h_new, c.cells_of_none h_bare]
  · have h_id' : ¬ arena.HasClass id := fun h_old => h_id (h_old.mono h.grows)
    rw [cells_of_not_hasClass h_id, cells_of_not_hasClass h_id']

/-! ### What members are -/

/-- **Underlying types.** Members have an underlying type exactly if the class is an enumeration and
the row of its definition names one. -/
theorem Means.underlying_iff (h_sound : arena.Sound m) (h_c : arena.class? id = some c)
    {members : Members} (h : arena.Means m config c.key members) :
    members.underlying.isSome = true ↔ c.isEnum = true ∧
      ∃ row, m.typeDefinition c.definition = .ok row ∧ row.elementTypeIndex.isSome = true := by
  obtain ⟨k, t, h_k, h_t, h_reads⟩ := h
  obtain ⟨lineage, h_traces, h_shows⟩ := h_sound.shows_of_key h_c h_k
  obtain ⟨row, h_row, h_value⟩ := Meaning.underlying_value_of_members h_t
  have h_term := Meaning.isSome_of_underlying_value h_value
  -- the class shows the kind that the row gives it
  have h_frame : lineage.frame.row = row := by
    rw [h_traces.typeDefinition_eq] at h_row
    exact Except.ok.inj h_row
  have h_definition : m.typeDefinition c.definition = .ok row := by
    rw [ResolvedClass.definition, h_k.1]
    exact h_row
  have h_same : members.underlying.isSome = t.underlying.isSome := by
    have h_rel := h_reads.underlying
    generalize members.underlying = ids at h_rel
    generalize t.underlying = terms at h_rel
    cases h_rel <;> rfl
  rw [h_same, h_term, Bool.and_eq_true, h_shows.isEnum, h_frame]
  constructor
  · rintro ⟨h_enum, h_index⟩
    exact ⟨h_enum, row, h_definition, h_index⟩
  · rintro ⟨h_enum, row', h_row', h_index⟩
    cases h_definition.symm.trans h_row'
    exact ⟨h_enum, h_index⟩

theorem Unfolds.has {t : TypeTerm} {type : TypeId} (h : arena.Unfolds t type) :
    arena.Has (.type type) :=
  has_type_iff.mpr h.hasType

theorem UnfoldsClass.has {k : KeyTerm} (h : arena.UnfoldsClass k id) : arena.Has (.class id) := by
  obtain ⟨c, h_c, -⟩ := h
  exact has_class_iff.mpr (hasClass_iff.mpr ⟨c, h_c⟩)

theorem ReadsField.has_refs {t : FieldTerm} {f : ResolvedField} (h : arena.ReadsField t f) :
    ∀ ref ∈ f.refs, arena.Has ref := by
  intro ref h_ref
  simp only [ResolvedField.refs, List.mem_cons, List.not_mem_nil, or_false] at h_ref
  rcases h_ref with rfl | rfl
  · exact h.type.has
  · exact h.declaring.has

theorem ReadsMethod.has_refs {t : MethodTerm} {f : ResolvedMethod} (h : arena.ReadsMethod t f) :
    ∀ ref ∈ f.refs, arena.Has ref := by
  intro ref h_ref
  simp only [ResolvedMethod.refs, List.mem_cons, List.mem_map] at h_ref
  rcases h_ref with rfl | rfl | ⟨p, h_p, rfl⟩
  · exact h.returnType.has
  · exact h.declaring.has
  · obtain ⟨_, -, h_read⟩ := exists_left_of_forall₂ h.parameters h_p
    exact h_read.type.has

/-- **Closure.** All that members refer to exists. -/
theorem Means.has_refs {key : ClassKey} {members : Members} (h : arena.Means m config key members)
    (h_members : c.members = some members) : ∀ ref ∈ c.cells.refs, arena.Has ref := by
  obtain ⟨_, t, -, -, h_reads⟩ := h
  rw [c.cells_of_some h_members]
  simp only [Cells.refs, Option.getD_some, List.forall_mem_append, List.forall_mem_map,
    List.forall_mem_flatMap]
  refine ⟨⟨⟨?_, ?_⟩, ?_⟩, ?_⟩
  · intro type h_type
    have h_rel := h_reads.underlying
    rw [Option.mem_toList.mp h_type] at h_rel
    generalize t.underlying = term at h_rel
    cases h_rel with
    | some h_unfolds => exact h_unfolds.has
  · intro inner h_inner
    obtain ⟨_, -, h_class⟩ := exists_left_of_forall₂ h_reads.nested h_inner
    exact h_class.has
  · intro f h_f
    obtain ⟨_, -, h_read⟩ := exists_left_of_forall₂ h_reads.fields h_f
    exact h_read.has_refs
  · intro f h_f
    obtain ⟨_, -, h_read⟩ := exists_left_of_forall₂ h_reads.methods h_f
    exact h_read.has_refs

end Arena

/-! ### Completions -/

namespace Resolving

variable {m : Metadata} {arena arena' : Arena} {maxDepth : Nat} {id : ClassId}

/-- The class was completed at some time. -/
def Completed (m : Metadata) (maxDepth : Nat) (arena : Arena) (id : ClassId) : Prop :=
  ∃ before : Arena, before.Sound m ∧ before.HasClass id ∧
    Succeeds (complete m maxDepth id) before ∧ after (complete m maxDepth id) before ≤ arena

theorem Completed.mono (h : Completed m maxDepth arena id) (h_le : arena ≤ arena') :
    Completed m maxDepth arena' id := by
  obtain ⟨before, h_sound, h_id, h_ok, h_before⟩ := h
  exact ⟨before, h_sound, h_id, h_ok, le_trans h_before h_le⟩

/-- **What was completed can be completed again.** -/
theorem Completed.succeeds (h : Completed m maxDepth arena id) (h_sound : arena.Sound m) :
    Succeeds (complete m maxDepth id) arena := by
  obtain ⟨before, h_before, h_id, ⟨u, h_ok⟩, h_le⟩ := h
  have h_again := (repeats_complete maxDepth h_before id h_id).again (steady_of_ok h_ok)
  obtain ⟨h_result, -⟩ := h_again arena h_le h_sound
  exact ⟨u, h_result.trans h_ok⟩

end Resolving

/-! ### States with cells -/

/-- A resolver and the cells of its classes. -/
structure CellState where
  resolver : Resolver
  /-- The cells of each class; those of a class that is not there are not set. -/
  cells : ClassId → Cells

namespace CellState

variable (m : Metadata) (config : Config)

/-- A new resolver. -/
def empty : CellState :=
  ⟨.empty, fun _ => .unset⟩

/-- What is written by the completion of a class, if it succeeds. -/
def written? (state : CellState) (id : ClassId) : Option Members := do
  let c ← state.resolver.arena.class? id
  (Resolving.result (Resolving.members m config.maxGenericDepth id c)
    state.resolver.arena).toOption

/-- One visit of a run. Only the completion of a class writes cells. -/
def visit (state : CellState) (v : Visit) : CellState where
  resolver := state.resolver.make m config v
  cells :=
    match v with
    | .class i =>
      match state.written? m config ⟨i⟩ with
      | some members => Function.update state.cells ⟨i⟩ ((state.cells ⟨i⟩).write members)
      | none => state.cells
    | _ => state.cells

/-- One thing that happens to a resolver: a caller asks for something, or a visit is made. -/
inductive Step : CellState → CellState → Prop
  /-- A request other than a run. -/
  | request {state : CellState} {request : Request} (known : request.Known state.resolver.arena)
      (single : request ≠ .run) :
      Step state { state with resolver := state.resolver.serve m config request }
  /-- A visit, whether or not it is its turn in a run. -/
  | visit {state : CellState} {v : Visit} (possible : v.Possible m config state.resolver.arena) :
      Step state (state.visit m config v)

/-- What one state can come to. -/
abbrev Leads : CellState → CellState → Prop :=
  ReflTransGen (Step m config)

variable {m config} {state next : CellState}

/-- What is known of all states. -/
structure Kept (m : Metadata) (config : Config) (state : CellState) : Prop where
  sound : state.resolver.arena.Sound m
  /-- Members are what the keys of their classes mean. -/
  meant : state.resolver.arena.Meant m config
  /-- The cells are those of the members. -/
  cells : state.cells = state.resolver.arena.cells
  /-- A class with members was completed. -/
  completed : state.resolver.arena.AllMembers fun id _ _ =>
    Resolving.Completed m config.maxGenericDepth state.resolver.arena id

theorem kept_empty : Kept m config empty where
  sound := Arena.sound_empty m
  meant _ _ _ h_c := by cases h_c
  cells := rfl
  completed _ _ _ h_c := by cases h_c

/-- **Bare classes.** Nothing is written when bare classes are added. -/
theorem Kept.addsBare (h : Kept m config state) {resolver : Resolver}
    (h_bare : state.resolver.arena.AddsBare resolver.arena) (h_sound : resolver.arena.Sound m) :
    Kept m config { state with resolver := resolver } where
  sound := h_sound
  meant := h.meant.addsBare h_bare
  cells := h.cells.trans h_bare.cells_eq.symm
  completed := (h.completed.imp fun _ _ _ h_done => h_done.mono h_bare.grows).addsBare h_bare

theorem written?_of_class? {id : ClassId} {c : ResolvedClass}
    (h_c : state.resolver.arena.class? id = some c) :
    state.written? m config id =
      (Resolving.result (Resolving.members m config.maxGenericDepth id c)
        state.resolver.arena).toOption := by
  rw [written?, h_c]
  rfl

theorem visit_of_written {i : Nat} {members : Members}
    (h : state.written? m config ⟨i⟩ = some members) :
    state.visit m config (.class i) =
      { resolver := state.resolver.make m config (.class i)
        cells := Function.update state.cells ⟨i⟩ ((state.cells ⟨i⟩).write members) } := by
  simp only [visit, h]

theorem visit_of_not_written {i : Nat} (h : state.written? m config ⟨i⟩ = none) :
    state.visit m config (.class i) =
      { state with resolver := state.resolver.make m config (.class i) } := by
  simp only [visit, h]

/-- **Publishing.** Members that mean what the key of a class means are published as they are
written. -/
theorem Kept.publish (h : Kept m config state) {id : ClassId} {c : ResolvedClass} {ms : Members}
    {resolver : Resolver} (h_c : state.resolver.arena.class? id = some c)
    (h_means : state.resolver.arena.Means m config c.key ms)
    (h_arena : resolver.arena = state.resolver.arena.publish id ms)
    (h_done : Resolving.Completed m config.maxGenericDepth resolver.arena id) :
    Kept m config ⟨resolver, Function.update state.cells id ((state.cells id).write ms)⟩ where
  sound := by
    rw [h_arena]
    exact h.sound.publish id ms
  meant := by
    rw [h_arena]
    exact h.meant.publish h_c h_means
  cells := by
    -- there is an underlying type now if and only if there was one before
    have h_underlying (old : Members) (h_old : c.members = some old) :
        old.underlying.isSome = ms.underlying.isSome := by
      have h_before := (h.meant id c old h_c h_old).underlying_iff h.sound h_c
      exact Bool.eq_iff_iff.mpr (h_before.trans (h_means.underlying_iff h.sound h_c).symm)
    show _ = resolver.arena.cells
    rw [h_arena, Arena.cells_publish h_c, c.cells_publish h_underlying, h.cells,
      Arena.cells_of_class? h_c]
  completed := by
    rw [h_arena] at h_done ⊢
    have h_le := state.resolver.arena.le_publish id ms
    have h_later := h.completed.imp fun _ _ _ h_old => h_old.mono h_le
    exact h_later.publish h_c h_done

/-- **Completion.** First bare classes are added, and then members are published, if there are
any. -/
theorem Kept.complete (h : Kept m config state) {i : Nat}
    (h_i : state.resolver.arena.HasClass ⟨i⟩) :
    Kept m config (state.visit m config (.class i)) := by
  obtain ⟨c, h_c⟩ := Arena.hasClass_iff.mp h_i
  have h_arena : (state.resolver.make m config (.class i)).arena =
      Resolving.after (Resolving.complete m config.maxGenericDepth ⟨i⟩) state.resolver.arena :=
    Resolver.attempt_arena ..
  obtain ⟨h_sound, h_bare, h_there, h_cases⟩ :=
    Resolving.complete_cases config.maxGenericDepth h.sound h_c
  have h_written : state.written? m config ⟨i⟩ = _ := written?_of_class? h_c
  rcases h_cases with ⟨ms, h_ms, h_ok, h_after⟩ | ⟨e, h_e, -, h_after⟩
  · have h_means := Resolving.means_of_members h.sound h_c h_ms
    rw [h_ms] at h_written
    rw [visit_of_written h_written]
    have h_created : Kept m config { state with resolver := ⟨_, state.resolver.failures⟩ } :=
      h.addsBare h_bare h_sound
    refine h_created.publish h_there h_means (h_arena.trans h_after) ?_
    exact ⟨_, h.sound, h_i, ⟨_, h_ok⟩, le_of_eq h_arena.symm⟩
  · rw [h_e] at h_written
    rw [visit_of_not_written h_written]
    refine h.addsBare ?_ (Resolver.sound_make h.sound _)
    rw [h_arena, h_after]
    exact h_bare

theorem Kept.visit (h : Kept m config state) {v : Visit}
    (h_v : v.Possible m config state.resolver.arena) :
    Kept m config (state.visit m config v) := by
  have h_sound : (state.resolver.make m config v).arena.Sound m := Resolver.sound_make h.sound v
  cases v with
  | definition d =>
    refine h.addsBare ?_ h_sound
    rw [Resolver.make, Resolver.seed, Resolver.attempt_arena]
    exact (Resolving.definition_follows h.sound d).addsBare
  | listing entry =>
    refine h.addsBare ?_ h_sound
    rw [Resolver.make, Resolver.seedListed, Resolver.attempt_arena]
    exact (Resolving.listed_follows config.maxGenericDepth h.sound entry.1).addsBare
  | «class» i => exact h.complete h_v

/-- **What is known of all states**, by induction on the steps. -/
theorem Kept.leads (h : Kept m config state) (h_leads : Leads m config state next) :
    Kept m config next := by
  induction h_leads with
  | refl => exact h
  | tail _ h_step ih =>
    cases h_step with
    | request h_known h_single =>
      exact ih.addsBare (Resolver.addsBare_serve ih.sound h_known h_single)
        (Resolver.sound_serve ih.sound h_known)
    | visit h_v => exact ih.visit h_v

/-- Nothing is lost on the way. -/
theorem Leads.le (h : Leads m config state next) : state.resolver.arena ≤ next.resolver.arena := by
  induction h with
  | refl => exact le_refl _
  | tail _ h_step ih =>
    refine le_trans ih ?_
    cases h_step with
    | request h_known h_single => exact Resolver.le_serve m config _ _
    | visit h_v => exact Resolver.le_make m config _ _

end CellState

/-! ### Runs -/

namespace Resolver

variable {m : Metadata} {config : Config} {resolver final : Resolver} {visits : List Visit}

theorem Makes.mem_failures (h : Makes m config visits resolver final) {code : List Nat}
    (h_code : code ∈ resolver.failures) : code ∈ final.failures := by
  induction h with
  | stay => exact h_code
  | visit _ _ ih => exact ih (mem_failures_make.mpr (.inl h_code))

/-- **Attempts.** A class that was visited has members in the end, unless a failure is written down
under it. -/
theorem Makes.attempted (h : Makes m config visits resolver final)
    (h_sound : resolver.arena.Sound m) {i : Nat} (h_i : .class i ∈ visits) :
    ∃ c, final.arena.class? ⟨i⟩ = some c ∧
      (c.members = none → (FailureSite.completion c.definition i).code ∈ final.failures) := by
  induction h with
  | stay => exact absurd h_i List.not_mem_nil
  | @visit v visits resolver final h_v h_rest ih =>
    rcases List.mem_cons.mp h_i with rfl | h_later
    · obtain ⟨c, h_c⟩ := Arena.hasClass_iff.mp h_v
      have h_le : resolver.arena ≤ final.arena := le_trans (le_make m config resolver _) h_rest.le
      obtain ⟨c', h_c', h_grows⟩ := Arena.class?_mono h_le h_c
      refine ⟨c', h_c', fun h_bare => h_rest.mem_failures (mem_failures_make.mpr (.inr ⟨?_, ?_⟩))⟩
      · -- the class has its definition from the start
        rw [Visit.site, h_c, ResolvedClass.definition, h_grows.key_eq]
        rfl
      · -- otherwise the members were published, and they are still there
        intro h_none
        rw [failure?, attemptFailure?_eq_none_iff] at h_none
        obtain ⟨u, h_ok⟩ := h_none
        have h_after : Resolving.after (Resolving.complete m config.maxGenericDepth ⟨i⟩)
            resolver.arena ≤ final.arena := by
          rw [← attempt_arena]
          exact h_rest.le
        obtain ⟨-, -, -, h_cases⟩ := Resolving.complete_cases config.maxGenericDepth h_sound h_c
        rcases h_cases with ⟨ms, h_ms, -⟩ | ⟨e, -, h_error, -⟩
        · obtain ⟨c'', old, h_c'', h_old⟩ :=
            Resolving.exists_members_of_complete config.maxGenericDepth h_sound h_c h_ms h_after
          cases h_c'.symm.trans h_c''
          rw [h_bare] at h_old
          cases h_old
        · rw [h_ok] at h_error
          cases h_error
    · exact ih (sound_make h_sound v) h_later

end Resolver

namespace CellState

variable {m : Metadata} {config : Config} {state next : CellState}

/-- The visits of a run are steps. -/
theorem leads_of_makes {visits : List Visit} {resolver final : Resolver}
    (h : resolver.Makes m config visits final) (cells : ClassId → Cells) :
    ∃ after, Leads m config ⟨resolver, cells⟩ ⟨final, after⟩ := by
  induction h generalizing cells with
  | stay => exact ⟨cells, .refl⟩
  | @visit v _ resolver _ h_v _ ih =>
    obtain ⟨after, h_after⟩ := ih (CellState.visit m config ⟨resolver, cells⟩ v).cells
    exact ⟨after, .head (.visit h_v) h_after⟩

/-- The visits of a run are steps, whatever its order. -/
theorem leads_of_runsFrom {resolver final : Resolver} (h : resolver.RunsFrom m config final)
    (cells : ClassId → Cells) : ∃ after, Leads m config ⟨resolver, cells⟩ ⟨final, after⟩ := by
  obtain ⟨visits, h_makes, -⟩ := h.exists_makes
  exact leads_of_makes h_makes cells

/-- **Callers.** What a caller can bring a new resolver to is a state. -/
theorem leads_of_reachable {resolver : Resolver} (h : resolver.Reachable m config) :
    ∃ cells, Leads m config empty ⟨resolver, cells⟩ := by
  induction h with
  | empty => exact ⟨_, .refl⟩
  | @serve resolver request before h_known ih =>
    obtain ⟨cells, h_before⟩ := ih
    by_cases h_run : request = .run
    · subst h_run
      obtain ⟨after, h_after⟩ := leads_of_runsFrom (Resolver.runsFrom_run before.sound) cells
      exact ⟨after, h_before.trans h_after⟩
    · exact ⟨cells, h_before.tail (.request h_known h_run)⟩
  | run _ h_runs ih =>
    obtain ⟨cells, h_before⟩ := ih
    obtain ⟨after, h_after⟩ := leads_of_runsFrom h_runs cells
    exact ⟨after, h_before.trans h_after⟩

/-! ### What is published -/

/-- What is known of the cells of a state. -/
structure Published (m : Metadata) (config : Config) (state : CellState) : Prop where
  /-- Nested classes, fields and methods are there together. -/
  together : ∀ id, (state.cells id).nested.isSome = (state.cells id).fields.isSome ∧
    (state.cells id).methods.isSome = (state.cells id).fields.isSome
  /-- The underlying type is there together with them, if the class is an enumeration and its
  definition has an element type. -/
  underlying : ∀ id, (state.cells id).underlying.isSome = true ↔
    (state.cells id).fields.isSome = true ∧ ∃ c row,
      state.resolver.arena.class? id = some c ∧ c.isEnum = true ∧
        m.typeDefinition c.definition = .ok row ∧ row.elementTypeIndex.isSome = true
  /-- A class that cannot be completed has nothing, before and after it is attempted. -/
  failed : ∀ id e, state.resolver.arena.HasClass id →
    Resolving.result (Resolving.complete m config.maxGenericDepth id) state.resolver.arena =
        .error e →
      state.cells id = .unset ∧ (state.visit m config (.class id.index)).cells id = .unset
  /-- Later on a class is still what it was, and has what it had. -/
  lasting : ∀ later, Leads m config state later →
    ∀ id c, state.resolver.arena.class? id = some c →
      ∃ c', later.resolver.arena.class? id = some c' ∧ { c' with members := c.members } = c ∧
        (state.cells id).KeptIn (later.cells id)
  /-- All that members refer to exists. -/
  members_closed : ∀ id, ∀ ref ∈ (state.cells id).refs, state.resolver.arena.Has ref
  /-- So does all that a class refers to, that is its arguments and the class around it. -/
  classes_closed : ∀ id c, state.resolver.arena.class? id = some c →
    ∀ ref ∈ c.refs, state.resolver.arena.Has ref
  /-- So does all that a type refers to in any number of steps, and the steps come to an end. -/
  types_closed : ∀ id, state.resolver.arena.HasType id →
    (∀ ref, ReflTransGen state.resolver.arena.Refers (.type id) ref →
      state.resolver.arena.Has ref) ∧ ∃ t, state.resolver.arena.Unfolds t id
  /-- The sequential run is a run. -/
  runs : state.resolver.RunsFrom m config (state.resolver.run m config)
  /-- A run attempts all classes that are there in the end, and those that have nothing then are
  reported. -/
  attempted : ∀ final, state.resolver.RunsFrom m config final →
    ∃ visits later, state.resolver.Makes m config visits final ∧ Leads m config state later ∧
      later.resolver = final ∧ ∀ id c, final.arena.class? id = some c →
        .class id.index ∈ visits ∧ (later.cells id = .unset →
          (FailureSite.completion c.definition id.index).code ∈ final.failures)

/-- A class either has nothing, or the cells of members that mean what its key means. -/
theorem Kept.cells_cases (h : Kept m config state) (id : ClassId) :
    state.cells id = .unset ∨ ∃ c members, state.resolver.arena.class? id = some c ∧
      c.members = some members ∧ state.resolver.arena.Means m config c.key members ∧
        state.cells id = c.cells := by
  rw [h.cells]
  by_cases h_id : state.resolver.arena.HasClass id
  · obtain ⟨c, h_c⟩ := Arena.hasClass_iff.mp h_id
    rw [Arena.cells_of_class? h_c]
    cases h_members : c.members with
    | none => exact .inl (c.cells_of_none h_members)
    | some members =>
      exact .inr ⟨c, members, h_c, h_members, h.meant id c members h_c h_members, rfl⟩
  · exact .inl (Arena.cells_of_not_hasClass h_id)

theorem Kept.underlying_iff (h : Kept m config state) (id : ClassId) :
    (state.cells id).underlying.isSome = true ↔
      (state.cells id).fields.isSome = true ∧ ∃ c row,
        state.resolver.arena.class? id = some c ∧ c.isEnum = true ∧
          m.typeDefinition c.definition = .ok row ∧ row.elementTypeIndex.isSome = true := by
  rcases h.cells_cases id with h_unset | ⟨c, members, h_c, h_members, h_means, h_cells⟩
  · rw [h_unset]
    exact iff_of_false Bool.false_ne_true fun h_set => Bool.false_ne_true h_set.1
  · rw [h_cells, c.cells_of_some h_members]
    refine (h_means.underlying_iff h.sound h_c).trans ⟨?_, ?_⟩
    · rintro ⟨h_enum, row, h_row, h_index⟩
      exact ⟨rfl, c, row, h_c, h_enum, h_row, h_index⟩
    · rintro ⟨-, c', row, h_c', h_enum, h_row, h_index⟩
      cases h_c.symm.trans h_c'
      exact ⟨h_enum, row, h_row, h_index⟩

/-- **Failures.** What cannot be completed has no members, since whatever was completed can be
completed again. -/
theorem Kept.unset_of_error (h : Kept m config state) {id : ClassId} {e : Error}
    (h_id : state.resolver.arena.HasClass id)
    (h_e : Resolving.result (Resolving.complete m config.maxGenericDepth id)
      state.resolver.arena = .error e) :
    state.cells id = .unset ∧ (state.visit m config (.class id.index)).cells = state.cells := by
  obtain ⟨c, h_c⟩ := Arena.hasClass_iff.mp h_id
  constructor
  · rw [h.cells, Arena.cells_of_class? h_c]
    refine c.cells_of_none (Option.eq_none_iff_forall_ne_some.mpr fun members h_members => ?_)
    obtain ⟨u, h_ok⟩ := (h.completed id c members h_c h_members).succeeds h.sound
    rw [h_e] at h_ok
    cases h_ok
  · have h_written : state.written? m config id = none := by
      rw [written?_of_class? h_c, (Resolving.complete_error_iff _ h_c).mp h_e]
      rfl
    rw [visit_of_not_written h_written]

theorem Kept.published (h : Kept m config state) : Published m config state where
  together id := by
    rcases h.cells_cases id with h_unset | ⟨c, members, -, h_members, -, h_cells⟩
    · rw [h_unset]
      exact ⟨rfl, rfl⟩
    · rw [h_cells, c.cells_of_some h_members]
      exact ⟨rfl, rfl⟩
  underlying := h.underlying_iff
  failed id e h_id h_e := by
    obtain ⟨h_unset, h_same⟩ := h.unset_of_error h_id h_e
    exact ⟨h_unset, h_same ▸ h_unset⟩
  lasting later h_leads id c h_c := by
    obtain ⟨c', h_c', h_grows⟩ := Arena.class?_mono h_leads.le h_c
    refine ⟨c', h_c', ?_, ?_⟩
    · rw [h_grows.shell]
    · rw [h.cells, (h.leads h_leads).cells, Arena.cells_of_class? h_c, Arena.cells_of_class? h_c']
      exact h_grows.cells_kept
  members_closed id ref h_ref := by
    rcases h.cells_cases id with h_unset | ⟨c, members, -, h_members, h_means, h_cells⟩
    · rw [h_unset] at h_ref
      exact absurd h_ref List.not_mem_nil
    · rw [h_cells] at h_ref
      exact h_means.has_refs h_members ref h_ref
  classes_closed id c h_c ref h_ref := by
    obtain ⟨time, h_time⟩ := h.sound.timed
    exact (h_time.earlier _ _ (Arena.refs?_class h_c) ref h_ref).1
  types_closed id h_id := by
    refine ⟨fun ref h_refers => ?_, h.sound.exists_unfolds h_id⟩
    obtain ⟨time, h_time⟩ := h.sound.timed
    rcases reflTransGen_iff_eq_or_transGen.mp h_refers with rfl | h_refers
    · exact Arena.has_type_iff.mpr h_id
    · exact (h_time.earlier_of_transGen h_refers).1
  runs := Resolver.runsFrom_run h.sound
  attempted final h_run := by
    obtain ⟨visits, h_makes, h_agenda⟩ := h_run.exists_makes
    obtain ⟨cells, h_leads⟩ := leads_of_makes h_makes state.cells
    refine ⟨visits, ⟨final, cells⟩, h_makes, h_leads, rfl, fun id c h_c => ?_⟩
    have h_visited : .class id.index ∈ visits :=
      h_agenda.mem_iff.mpr (Resolver.mem_agenda_class.mpr (Arena.hasClass_iff.mpr ⟨c, h_c⟩))
    refine ⟨h_visited, fun h_unset => ?_⟩
    obtain ⟨c', h_c', h_failed⟩ := h_makes.attempted h.sound h_visited
    cases h_c.symm.trans h_c'
    have h_cells := (h.leads h_leads).cells
    refine h_failed (ResolvedClass.members_of_cells ?_)
    rw [← Arena.cells_of_class? h_c, ← h_unset, h_cells]

/-- **Members are published at once**, once and closed. Whatever a caller brings a new resolver to
is a state with cells, and in all of these, those in the midst of runs included, the four cells of
a class hold its members or nothing. -/
theorem published_at_once (m : Metadata) (config : Config) :
    (∀ resolver, Resolver.Reachable m config resolver →
      ∃ cells, Leads m config empty ⟨resolver, cells⟩) ∧
    ∀ state, Leads m config empty state →
      state.cells = state.resolver.arena.cells ∧ Published m config state := by
  refine ⟨fun resolver => leads_of_reachable, fun state h_leads => ?_⟩
  have h_kept := kept_empty.leads h_leads
  exact ⟨h_kept.cells, h_kept.published⟩

/-- The first class of `boxedElsewhere` cannot be completed and has nothing; the second one has all
its cells set, but for the underlying type. -/
theorem published_at_once_boxed :
    let final := Resolver.empty.run .boxedElsewhere .minimal
    (∃ cells, Leads .boxedElsewhere .minimal empty ⟨final, cells⟩ ∧ cells ⟨0⟩ = .unset ∧
      cells ⟨1⟩ = ⟨none, some [], some [], some []⟩) ∧
      Resolving.result (Resolving.complete .boxedElsewhere 4 ⟨0⟩) final.arena =
        .error (.unresolved (.members .field 1 2 1)) := by
  intro final
  have h_run : final = Resolver.completeRange .boxedElsewhere 4 0 2
      (Resolver.empty.start .boxedElsewhere .minimal) :=
    Resolver.run_of_one_round (by decide +kernel) (by decide +kernel)
  obtain ⟨h_leads, h_published⟩ := published_at_once .boxedElsewhere .minimal
  have h_reachable : Resolver.Reachable .boxedElsewhere .minimal final :=
    .serve .run .empty trivial
  obtain ⟨cells, h_cells⟩ := h_leads final h_reachable
  obtain ⟨h_same, h_final⟩ := h_published _ h_cells
  have h_size : final.arena.classes.size = 2 := by
    rw [h_run]
    decide +kernel
  -- the run of fields of the first definition reaches past the table
  have h_e : Resolving.result (Resolving.complete .boxedElsewhere 4 ⟨0⟩) final.arena =
      .error (.unresolved (.members .field 1 2 1)) := by
    rw [h_run]
    decide +kernel
  have h_zero : final.arena.HasClass ⟨0⟩ := by
    show 0 < final.arena.classes.size
    omega
  refine ⟨⟨cells, h_cells, (h_final.failed ⟨0⟩ _ h_zero h_e).1, ?_⟩, h_e⟩
  rw [show cells = final.arena.cells from h_same, h_run]
  decide +kernel

end CellState

end GlobalMetadata
