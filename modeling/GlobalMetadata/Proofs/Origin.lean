import GlobalMetadata.Proofs.Atomicity

/-!
# Where classes come from

A class is created either for a definition or, after the class of its definition, for an
instantiation; nothing else brings a class about, and what becomes of it later is only that it gets
members (`Arena.Change.class?_cases`). Two things follow for every class that is ever there.

* Its definition has a class (`Arena.Based`), whoever asked for it.
* If a run created it, its key was admitted: it is no deeper than the limit, and its arguments are
  not the own parameters of its definition (`Arena.AdmittedSince`). A caller that asks for the class
  of a key can bring about others.

Both hold in the midst of a run as well, and after anything that callers and runs do later
(`CellState.based`, `CellState.admitted_of_runCreates`).
-/

namespace GlobalMetadata

open Relation

namespace Arena

variable {Allowed : Arena → ClassKey → Prop} {arena arena' before : Arena} {maxDepth : Nat}

/-- How a new class comes about. -/
inductive Born (Allowed : Arena → ClassKey → Prop) (arena : Arena) (c : ResolvedClass) : Prop
  /-- For a definition. -/
  | definition (plain : c.key = .ofDefinition c.definition)
  /-- For an instantiation, after the class of its definition. -/
  | instantiation {base : ClassId} {b : ResolvedClass}
      (found : arena.find? (.ofDefinition c.definition) = some base)
      (at_base : arena.class? base = some b) (allowed : Allowed arena c.key)
      (depth : c.depth = arena.keyDepth c.key)

/-- **Inversion.** A class after a change was there before, up to members, or is new. -/
theorem Change.class?_cases (h : Change Allowed arena arena') {id : ClassId} {c' : ResolvedClass}
    (h_c' : arena'.class? id = some c') :
    (∃ c, arena.class? id = some c ∧ c.GrowsTo c') ∨
      ¬ arena.HasClass id ∧ arena.Born Allowed c' := by
  cases h with
  | intern type => exact .inl ⟨c', h_c', .refl c'⟩
  | @definition c h_plain h_bare =>
    rcases class?_insert_cases h_c' with h_old | ⟨h_new, rfl⟩
    · exact .inl ⟨c', h_old, .refl c'⟩
    · exact .inr ⟨h_new, .definition h_plain⟩
  | @instantiation key base b h_found h_base h_allowed =>
    rcases class?_insert_cases h_c' with h_old | ⟨h_new, rfl⟩
    · exact .inl ⟨c', h_old, .refl c'⟩
    · exact .inr ⟨h_new, .instantiation h_found h_base h_allowed rfl⟩
  | truncate => exact .inl ⟨c', h_c', .refl c'⟩
  | publish owner members =>
    rw [class?_publish] at h_c'
    by_cases h_owner : owner = id
    · -- the class that gets the members
      rw [if_pos h_owner, Option.map_eq_some_iff] at h_c'
      obtain ⟨c, h_c, rfl⟩ := h_c'
      exact .inl ⟨c, h_c, c.growsTo_publish members⟩
    · rw [if_neg h_owner] at h_c'
      exact .inl ⟨c', h_c', .refl c'⟩

/-! ### The class of the definition -/

/-- Every class has the class of its definition beside it. -/
def Based (arena : Arena) : Prop :=
  ∀ id c, arena.class? id = some c → ∃ base, arena.find? (.ofDefinition c.definition) = some base

theorem based_empty : empty.Based := by
  intro id c h_c
  cases h_c

theorem Change.based (h : Change Allowed arena arena') (h_based : arena.Based) :
    arena'.Based := by
  intro id c' h_c'
  rcases h.class?_cases h_c' with ⟨c, h_c, h_grows⟩ | ⟨-, h_born⟩
  · -- an old class keeps its definition, and so does the class of that
    obtain ⟨base, h_base⟩ := h_based id c h_c
    refine ⟨base, find?_mono h.le ?_⟩
    rwa [ResolvedClass.definition, h_grows.key_eq]
  · cases h_born with
    | definition h_plain => exact ⟨id, h_plain ▸ find?_key h_c'⟩
    | @instantiation base _ h_found _ _ _ => exact ⟨base, find?_mono h.le h_found⟩

/-! ### Classes that a run creates -/

/-- A class that a run may create: that of a definition, or of a key that is not too deep and whose
arguments are not the own parameters of its definition. -/
inductive Admitted (maxDepth : Nat) (arena : Arena) (c : ResolvedClass) : Prop
  /-- A definition. -/
  | definition (plain : c.key = .ofDefinition c.definition)
  /-- An instantiation. -/
  | instantiation {base : ClassId} {b : ResolvedClass} (depth_le : c.depth ≤ maxDepth)
      (found : arena.find? (.ofDefinition c.definition) = some base)
      (at_base : arena.class? base = some b) (foreign : ¬ b.Owns c.key)

/-- The class of a definition keeps its parameters, so that what was admitted stays so. -/
theorem Admitted.mono {c c' : ResolvedClass} (h : arena.Admitted maxDepth c) (h_le : arena ≤ arena')
    (h_grows : c.GrowsTo c') : arena'.Admitted maxDepth c' := by
  have h_key : c'.key = c.key := h_grows.key_eq
  cases h with
  | definition h_plain =>
    refine .definition ?_
    rw [ResolvedClass.definition, h_key]
    exact h_plain
  | @instantiation base b h_depth h_found h_b h_foreign =>
    obtain ⟨b', h_b', h_grown⟩ := class?_mono h_le h_b
    refine .instantiation ?_ (find?_mono h_le ?_) h_b' ?_
    · rw [h_grows.shell]
      exact h_depth
    · rwa [ResolvedClass.definition, h_key]
    · rw [h_key]
      rintro ⟨h_method, h_class⟩
      -- the parameters are among what is fixed at creation
      rw [h_grown.shell] at h_class
      exact h_foreign ⟨h_method, h_class⟩

theorem Born.admitted {c : ResolvedClass} (h : arena.Born (Admits maxDepth) c) :
    arena.Admitted maxDepth c := by
  cases h with
  | definition h_plain => exact .definition h_plain
  | instantiation h_found h_b h_admits h_depth =>
    refine .instantiation ?_ h_found h_b (h_admits.2 _ _ h_found h_b)
    rw [h_depth]
    exact h_admits.1

/-- Every class that was not there before is admitted. -/
def AdmittedSince (maxDepth : Nat) (before arena : Arena) : Prop :=
  ∀ id c, arena.class? id = some c → ¬ before.HasClass id → arena.Admitted maxDepth c

theorem Change.admittedSince (h : Change (Admits maxDepth) arena arena')
    (h_since : AdmittedSince maxDepth before arena) : AdmittedSince maxDepth before arena' := by
  intro id c' h_c' h_new
  rcases h.class?_cases h_c' with ⟨c, h_c, h_grows⟩ | ⟨-, h_born⟩
  · exact (h_since id c h_c h_new).mono h.le h_grows
  · exact h_born.admitted.mono h.le (.refl c')

/-- **New classes are admitted**, however many changes there are. -/
theorem Becomes.admittedSince (h : Becomes (Admits maxDepth) before arena) :
    AdmittedSince maxDepth before arena := by
  refine h.keeps (fun _ _ h_change h_since => h_change.admittedSince h_since) ?_
  -- nothing is new at first
  intro id c h_c h_new
  exact absurd (hasClass_iff.mpr ⟨c, h_c⟩) h_new

end Arena

/-! ### Visits and requests -/

namespace Resolver

variable {m : Metadata} {config : Config} {resolver : Resolver}

/-- A visit asks for admitted keys only. -/
theorem becomes_make (m : Metadata) (config : Config) (resolver : Resolver) (v : Visit) :
    Arena.Becomes (Arena.Admits config.maxGenericDepth) resolver.arena
      (make m config resolver v).arena := by
  cases v with
  | definition d =>
    rw [make, seed, attempt_arena]
    exact Resolving.changes_definition m d _
  | listing entry =>
    rw [make, seedListed, attempt_arena]
    exact Resolving.changes_listed m config.maxGenericDepth entry.1 _
  | «class» i =>
    rw [make, completeClass, attempt_arena]
    exact Resolving.changes_complete m config.maxGenericDepth ⟨i⟩ _

theorem based_make (h : resolver.arena.Based) (v : Visit) :
    (make m config resolver v).arena.Based :=
  (becomes_make m config resolver v).keeps (fun _ _ h_change h_based => h_change.based h_based) h

/-- A request other than a run asks for what the caller wants. -/
theorem based_serve (h : resolver.arena.Based) {request : Request} (h_single : request ≠ .run) :
    (resolver.serve m config request).arena.Based := by
  cases request with
  | «class» key =>
    exact (Resolving.changes_classOf m key).keeps
      (fun _ _ h_change h_based => h_change.based h_based) h
  | type source scope =>
    exact (Resolving.changes_type m config.maxGenericDepth scope source).keeps
      (fun _ _ h_change h_based => h_change.based h_based) h
  | intern made =>
    have h_change : Arena.Change (fun _ _ => True) resolver.arena (resolver.arena.intern made).2 :=
      .intern made
    exact h_change.based h
  | run => exact absurd rfl h_single

end Resolver

namespace CellState

variable {m : Metadata} {config : Config} {state : CellState} {id : ClassId}

/-- **The class of the definition** is there in every state. -/
theorem based (h : Leads m config empty state) : state.resolver.arena.Based := by
  induction h with
  | refl => exact Arena.based_empty
  | tail _ h_step ih =>
    cases h_step with
    | request _ h_single => exact Resolver.based_serve ih h_single
    | visit _ => exact Resolver.based_make ih _

/-- A class of a state was created by a run, that is by one of the visits that led to the state. -/
def RunCreates (m : Metadata) (config : Config) (state : CellState) (id : ClassId) : Prop :=
  ∃ before v, Leads m config empty before ∧ v.Possible m config before.resolver.arena ∧
    ¬ before.resolver.arena.HasClass id ∧ Leads m config (before.visit m config v) state ∧
    (before.visit m config v).resolver.arena.HasClass id

/-- **What a run creates was admitted.** -/
theorem RunCreates.admitted (h : RunCreates m config state id) {c : ResolvedClass}
    (h_c : state.resolver.arena.class? id = some c) :
    state.resolver.arena.Admitted config.maxGenericDepth c := by
  obtain ⟨before, v, h_before, h_v, h_new, h_state, h_there⟩ := h
  obtain ⟨c₀, h_c₀⟩ := Arena.hasClass_iff.mp h_there
  have h_born := (Resolver.becomes_make m config before.resolver v).admittedSince id c₀ h_c₀ h_new
  -- the class grows with the arena
  obtain ⟨c', h_c', h_grows⟩ := Arena.class?_mono h_state.le h_c₀
  cases h_c.symm.trans h_c'
  exact h_born.mono h_state.le h_grows

/-- A class that is new after the visits of a run was created by one of them. -/
theorem runCreates_of_makes {visits : List Visit} {resolver final : Resolver}
    (h : resolver.Makes m config visits final) {cells : ClassId → Cells}
    (h_leads : Leads m config empty ⟨resolver, cells⟩) (h_new : ¬ resolver.arena.HasClass id)
    (h_there : final.arena.HasClass id) : ∃ after, RunCreates m config ⟨final, after⟩ id := by
  induction h generalizing cells with
  | stay => exact absurd h_there h_new
  | @visit v visits resolver final h_v h_rest ih =>
    have h_next := h_leads.tail (.visit h_v)
    by_cases h_made : (resolver.make m config v).arena.HasClass id
    · -- the first visit created it
      obtain ⟨after, h_after⟩ :=
        leads_of_makes h_rest (CellState.visit m config ⟨resolver, cells⟩ v).cells
      exact ⟨after, _, v, h_leads, h_v, h_new, h_after, h_made⟩
    · exact ih h_next h_made h_there

/-- **Runs.** What is new after a run was created by it. -/
theorem runCreates_of_runsFrom {resolver final : Resolver} (h : resolver.Reachable m config)
    (h_run : resolver.RunsFrom m config final) (h_new : ¬ resolver.arena.HasClass id)
    (h_there : final.arena.HasClass id) : ∃ cells, RunCreates m config ⟨final, cells⟩ id := by
  obtain ⟨cells, h_leads⟩ := leads_of_reachable h
  obtain ⟨visits, h_makes, -⟩ := h_run.exists_makes
  exact runCreates_of_makes h_makes h_leads h_new h_there

end CellState

end GlobalMetadata
