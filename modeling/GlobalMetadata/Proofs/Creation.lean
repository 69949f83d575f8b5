import GlobalMetadata.Proofs.Identity
import GlobalMetadata.Proofs.Refinement

/-!
# Which definitions can be created

Whether the class of a definition can be created depends on what is there already. The types around
the definition are followed outwards for a limited number of links, but only as far as to the first
one that has a class. So a definition that is nested too deeply is refused if nothing around it is
there yet, and granted if enough of it is.

`Arena.InReach` says that a chain comes to a class, or to its end, before the links run out, and
`Resolving.definitionWithin_succeeds_iff` that this, together with having a chain at all, is exactly
when the class of a definition is found or created.
-/

namespace GlobalMetadata

/-- A chain comes to a definition that has a class, or to its end, within so many links. -/
def Arena.InReach (arena : Arena) : Nat → Lineage → Prop
  | 0, lineage => ∃ id, arena.find? (.ofDefinition lineage.frame.definition) = some id
  | links + 1, lineage =>
    (∃ id, arena.find? (.ofDefinition lineage.frame.definition) = some id) ∨
      ∀ outer, lineage.outer? = some outer → InReach arena links outer

namespace Arena

variable {arena : Arena}

theorem inReach_of_found {links : Nat} {lineage : Lineage} {id : ClassId}
    (h : arena.find? (.ofDefinition lineage.frame.definition) = some id) :
    arena.InReach links lineage := by
  cases links with
  | zero => exact ⟨id, h⟩
  | succ links => exact .inl ⟨id, h⟩

/-- A chain without any class in it is in reach if it is short enough, and then only. -/
theorem inReach_iff_length_le {links : Nat} {lineage : Lineage}
    (h_none : ∀ definition, arena.find? (.ofDefinition definition) = none) :
    arena.InReach links lineage ↔ lineage.length ≤ links := by
  have h_absent {lineage : Lineage} :
      ¬ ∃ id, arena.find? (.ofDefinition lineage.frame.definition) = some id := by
    rintro ⟨id, h_id⟩
    rw [h_none] at h_id
    cases h_id
  induction links generalizing lineage with
  | zero => exact iff_of_false h_absent (Nat.not_le.mpr lineage.length_pos)
  | succ links ih =>
    rw [InReach, or_iff_right h_absent]
    cases lineage with
    | top namespaceName frame =>
      exact iff_of_true (fun _ h_outer => by cases h_outer) (Nat.succ_le_succ (Nat.zero_le links))
    | nested frame outer =>
      have h_length : (Lineage.nested frame outer).length = outer.length + 1 := rfl
      rw [h_length]
      refine Iff.trans ?_ (ih.trans Nat.succ_le_succ_iff.symm)
      constructor
      · exact fun h => h outer rfl
      · rintro h _ ⟨⟩
        exact h

/-- A short chain is in reach whatever is there. -/
theorem inReach_of_length_le {links : Nat} {lineage : Lineage} (h : lineage.length ≤ links) :
    arena.InReach links lineage := by
  induction links generalizing lineage with
  | zero => exact absurd h (Nat.not_le.mpr lineage.length_pos)
  | succ links ih =>
    cases lineage with
    | top namespaceName frame => exact .inr fun _ h_outer => by cases h_outer
    | nested frame outer =>
      refine .inr fun _ h_outer => ?_
      cases h_outer
      exact ih (Nat.le_of_succ_le_succ h)

end Arena

namespace Resolving

/-! ### Success -/

section Success

variable {α β : Type} {arena : Arena}

/-- A step gives a value. -/
def Succeeds (x : Resolving α) (arena : Arena) : Prop :=
  ∃ a, result x arena = .ok a

theorem not_succeeds_iff {x : Resolving α} :
    ¬ Succeeds x arena ↔ ∃ e, result x arena = .error e := by
  rw [Succeeds]
  cases result x arena with
  | ok a =>
    refine iff_of_false (fun h => h ⟨a, rfl⟩) ?_
    rintro ⟨e, h_e⟩
    cases h_e
  | error e =>
    refine iff_of_true ?_ ⟨e, rfl⟩
    rintro ⟨a, h_a⟩
    cases h_a

theorem Succeeds.bind {x : Resolving α} {f : α → Resolving β} (h : Succeeds x arena)
    (h_f : ∀ a, result x arena = .ok a → Succeeds (f a) (after x arena)) :
    Succeeds (x >>= f) arena := by
  obtain ⟨a, h_a⟩ := h
  obtain ⟨b, h_b⟩ := h_f a h_a
  exact ⟨b, (bind_of_ok h_a).1.trans h_b⟩

theorem succeeds_bind_read {e : Except Error α} {f : α → Resolving β} {a : α} (h : e = .ok a)
    (h_f : Succeeds (f a) arena) : Succeeds (liftM e >>= f) arena :=
  .bind ⟨a, h⟩ fun b h_b => by
    rw [result_lift, h] at h_b
    cases h_b
    exact h_f

theorem succeeds_mapM {f : α → Resolving β} {as : List α}
    (h_f : ∀ a ∈ as, ∀ arena, Succeeds (f a) arena) (arena : Arena) :
    Succeeds (as.mapM f) arena := by
  induction as generalizing arena with
  | nil => exact ⟨[], rfl⟩
  | cons a as ih =>
    rw [List.mapM_cons]
    refine (h_f a List.mem_cons_self arena).bind fun b _ => ?_
    refine (ih (fun a' h_a' => h_f a' (List.mem_cons_of_mem a h_a')) _).bind fun bs _ => ?_
    exact ⟨b :: bs, rfl⟩

end Success

/-! ### Creation -/

section Creation

variable {m : Metadata} {arena : Arena} {row : TypeDefinition}

/-- A class can be created inside the class around it if its chain can be read. -/
theorem create_succeeds (h : arena.Sound m) {index : Nat} {outer : Option Lineage}
    {declaring : Option ClassId} {lineage : Lineage} (h_encloses : arena.Encloses outer declaring)
    (h_around : ∀ around, outer = some around → m.Traces around.frame.definition around)
    (h_made : m.lineageOf index row outer = .ok lineage) :
    Succeeds (create m index row declaring) arena := by
  obtain ⟨h_namespace, -⟩ := namespaceName_of_encloses h h_encloses h_around
  -- everything that the chain reads is read by the class too
  obtain ⟨name, h_name, h_made⟩ := except_bind_eq_ok_iff.mp h_made
  obtain ⟨namespaceName, h_namespaceName, h_made⟩ := except_bind_eq_ok_iff.mp h_made
  obtain ⟨rows, h_rows, h_made⟩ := except_bind_eq_ok_iff.mp h_made
  obtain ⟨parameters, h_parameters, -⟩ := except_bind_eq_ok_iff.mp h_made
  refine succeeds_bind_read h_name (.bind ⟨arena, rfl⟩ ?_)
  rintro _ ⟨⟩
  refine succeeds_bind_read (h_namespace ▸ h_namespaceName) (succeeds_bind_read h_rows ?_)
  refine (succeeds_mapM (fun parameter h_parameter arena' => ?_) arena).bind fun ids _ => ⟨_, rfl⟩
  obtain ⟨pair, h_pair⟩ := exists_of_mapM_eq_ok h_parameters parameter h_parameter
  obtain ⟨parameterName, h_parameterName, -⟩ := except_bind_eq_ok_iff.mp h_pair
  exact succeeds_bind_read h_parameterName ⟨_, rfl⟩

/-- The class around a definition is that of the definition which its row names. -/
theorem declaringClass_eq {resolve : Nat → Resolving ClassId} {outer : Nat}
    (h : m.Declares row outer) : declaringClass m resolve row = some <$> resolve outer := by
  obtain ⟨index, descriptor, h_index, h_descriptor, h_outer⟩ := h
  rw [declaringClass, h_index]
  dsimp only
  rw [h_descriptor]
  -- both the descriptor and the definition that it names are known
  show (liftM (m.declaringDefinition descriptor) : Resolving Nat) >>= _ = _
  rw [h_outer]
  rfl

/-- What is there is found, and has a chain since the arena is sound. -/
theorem definitionWithin_of_found (h : arena.Sound m) {links index : Nat} {id : ClassId}
    (h_found : arena.find? (.ofDefinition index) = some id) :
    result (definitionWithin m links index) arena = .ok id ∧
      ∃ lineage, m.Traces index lineage ∧ arena.InReach links lineage := by
  obtain ⟨c, lineage, -, -, h_traces, -⟩ := h.shows_of_definition h_found
  have h_there : arena.find? (.ofDefinition lineage.frame.definition) = some id := by
    rwa [h_traces.frame_definition]
  refine ⟨?_, lineage, h_traces, Arena.inReach_of_found h_there⟩
  cases links <;> rw [definitionWithin, result_get_bind, h_found] <;> rfl

/-- What is not there is in reach if the definition around it is, with one link less. -/
theorem inReach_succ_iff {links index : Nat} {lineage : Lineage}
    (h_new : arena.find? (.ofDefinition index) = none) (h_traces : m.Traces index lineage) :
    arena.InReach (links + 1) lineage ↔
      ∀ outer, lineage.outer? = some outer → arena.InReach links outer := by
  -- it is not there itself
  refine or_iff_right ?_
  rintro ⟨id, h_id⟩
  rw [h_traces.frame_definition, h_new] at h_id
  cases h_id

/-- What is created with one link more has been created after the class around it. -/
theorem exists_inReach_of_succeeds (h : arena.Sound m) {links index : Nat}
    (h_outer : ∀ outer, Succeeds (definitionWithin m links outer) arena →
      ∃ around, m.Traces outer around ∧ arena.InReach links around)
    (h_new : arena.find? (.ofDefinition index) = none)
    (h_succeeds : Succeeds (definitionWithin m (links + 1) index) arena) :
    ∃ lineage, m.Traces index lineage ∧ arena.InReach (links + 1) lineage := by
  obtain ⟨id, h_id⟩ := h_succeeds
  obtain ⟨lineage, -, h_traces, -⟩ := (definitionWithin_follows h _ index).value id h_id
  refine ⟨lineage, h_traces, (inReach_succ_iff h_new h_traces).mpr fun outer h_around => ?_⟩
  rw [definitionWithin, result_get_bind, h_new] at h_id
  obtain ⟨row, h_row, h_id, -⟩ := exists_of_bind_eq_ok h_id
  obtain ⟨declaring, h_declaring, -, -⟩ := exists_of_bind_eq_ok h_id
  cases h_traces with
  | top _ _ h_made =>
    rw [(Metadata.madeOf_of_lineageOf h_made).outer_eq] at h_around
    cases h_around
  | nested h_row' h_inside h_traced h_made =>
    rw [(Metadata.madeOf_of_lineageOf h_made).outer_eq] at h_around
    cases h_around
    rw [result_lift, h_row'] at h_row
    cases h_row
    -- the class around was found or created on the way
    rw [declaringClass_eq h_inside, map_eq_pure_bind] at h_declaring
    obtain ⟨id', h_id', -, -⟩ := exists_of_bind_eq_ok h_declaring
    obtain ⟨around, h_traces', h_reach⟩ := h_outer _ ⟨id', h_id'⟩
    rwa [h_traced.unique h_traces']

/-- A class can be created with one link more than the class around it. -/
theorem succeeds_of_inReach (h : arena.Sound m) {links index : Nat} {lineage : Lineage}
    (h_outer : ∀ outer around, m.Traces outer around → arena.InReach links around →
      Succeeds (definitionWithin m links outer) arena)
    (h_new : arena.find? (.ofDefinition index) = none) (h_traces : m.Traces index lineage)
    (h_reach : arena.InReach (links + 1) lineage) :
    Succeeds (definitionWithin m (links + 1) index) arena := by
  rw [inReach_succ_iff h_new h_traces] at h_reach
  rw [Succeeds, definitionWithin, result_get_bind, h_new]
  cases h_traces with
  | top h_row h_alone h_made =>
    refine succeeds_bind_read h_row ?_
    rw [declaringClass, h_alone]
    exact create_succeeds h .top (fun _ h_none => by cases h_none) h_made
  | @nested _ outer row _ around h_row h_inside h_traced h_made =>
    have h_around := h_reach around (Metadata.madeOf_of_lineageOf h_made).outer_eq
    obtain ⟨id, h_id⟩ := h_outer outer around h_traced h_around
    -- the class around comes first, and the arena stays sound
    have h_follows := definitionWithin_follows h links outer
    obtain ⟨around', -, h_traces', h_there⟩ := h_follows.value id h_id
    obtain rfl := h_traced.unique h_traces'
    obtain ⟨h_result, h_after⟩ := bind_of_ok (f := fun id => pure (some id)) h_id
    refine succeeds_bind_read h_row ?_
    rw [declaringClass_eq h_inside, map_eq_pure_bind]
    refine .bind ⟨some id, h_result⟩ fun declaring h_same => ?_
    rw [h_result] at h_same
    cases h_same
    rw [h_after]
    refine create_succeeds h_follows.sound (.nested ?_) (fun around' h_some => ?_) h_made
    · rwa [h_traced.frame_definition]
    · cases h_some
      rwa [h_traced.frame_definition]

/-- **When creation succeeds.** The class of a definition is found or created exactly if the
definition has a chain that is in reach. By induction on the links, along the chain. -/
theorem definitionWithin_succeeds_iff (h : arena.Sound m) {links index : Nat} :
    Succeeds (definitionWithin m links index) arena ↔
      ∃ lineage, m.Traces index lineage ∧ arena.InReach links lineage := by
  induction links generalizing index with
  | zero =>
    cases h_found : arena.find? (.ofDefinition index) with
    | some id =>
      obtain ⟨h_id, h_chain⟩ := definitionWithin_of_found h h_found
      exact iff_of_true ⟨id, h_id⟩ h_chain
    | none =>
      -- without links nothing is created
      refine iff_of_false ?_ ?_
      · rintro ⟨id, h_id⟩
        rw [definitionWithin, result_get_bind, h_found] at h_id
        cases h_id
      · rintro ⟨lineage, h_traces, id, h_id⟩
        rw [h_traces.frame_definition, h_found] at h_id
        cases h_id
  | succ links ih =>
    cases h_found : arena.find? (.ofDefinition index) with
    | some id =>
      obtain ⟨h_id, h_chain⟩ := definitionWithin_of_found h h_found
      exact iff_of_true ⟨id, h_id⟩ h_chain
    | none =>
      constructor
      · intro h_succeeds
        exact exists_inReach_of_succeeds h (fun _ => ih.mp) h_found h_succeeds
      · rintro ⟨lineage, h_traces, h_reach⟩
        have h_outer (outer : Nat) (around : Lineage) (h_traced : m.Traces outer around)
            (h_around : arena.InReach links around) := ih.mpr ⟨around, h_traced, h_around⟩
        exact succeeds_of_inReach h h_outer h_found h_traces h_reach

end Creation

end Resolving
end GlobalMetadata
