import GlobalMetadata.Proofs.Fallible
import GlobalMetadata.Proofs.Term
import Mathlib.Data.List.Nodup

/-!
# The types around a type

A class of a nested type takes its namespace and its path from the types around it. `Lineage` is
that chain of types, from a definition outwards to one that nothing declares, with everything about
them that a class shows. It is read off the tables alone: no class has to exist.

A chain need not end. `Metadata.Traces` is the chain of a definition as a relation, without any
bound, and `Metadata.lineageWithin` computes it along at most so many definitions. The two meet in
`Metadata.lineageWithin_eq_ok_iff`.

No definition occurs twice in a chain that ends, since the rest of the chain follows from the
definition. So such a chain is no longer than the table, and `Metadata.lineage`, which follows no
more, finds every one of them (`Metadata.lineage_eq_ok_iff`).
-/

namespace GlobalMetadata

/-! ### Chains -/

/-- What a type definition shows by itself. -/
structure Frame where
  /-- The position of the type definition. -/
  definition : Nat
  row : TypeDefinition
  name : String
  /-- The positions and names of its own generic parameters. -/
  parameters : List (Nat × String)

/-- The own generic parameters of a type definition, all open. -/
def Frame.openArgs (frame : Frame) : List TypeTerm :=
  frame.parameters.map fun (position, name) => .parameter position false name

/-- A type definition with the types around it. -/
inductive Lineage
  /-- A type that no other one declares. -/
  | top (namespaceName : String) (frame : Frame)
  /-- A nested type and the chain of the type around it. -/
  | nested (frame : Frame) (outer : Lineage)

namespace Lineage

/-- The chain of a type inside another one, or of one that is inside none. -/
def make (namespaceName : String) (frame : Frame) : Option Lineage → Lineage
  | none => .top namespaceName frame
  | some outer => .nested frame outer

/-- The innermost type. -/
def frame : Lineage → Frame
  | .top _ frame | .nested frame _ => frame

/-- The chain of the type around the innermost one. -/
def outer? : Lineage → Option Lineage
  | .top _ _ => none
  | .nested _ outer => some outer

/-- The namespace, which only the outermost type has. -/
def namespaceName : Lineage → String
  | .top namespaceName _ => namespaceName
  | .nested _ outer => outer.namespaceName

/-- The path of identifiers from the namespace to the name. -/
def qualifiedName : Lineage → String
  | .top namespaceName frame => Name.qualified namespaceName none frame.name
  | .nested frame outer =>
    Name.qualified outer.namespaceName (some outer.qualifiedName) frame.name

/-- The type definitions of a chain, from the innermost one outwards. -/
def definitions : Lineage → List Nat
  | .top _ frame => [frame.definition]
  | .nested frame outer => frame.definition :: outer.definitions

/-- The number of types. -/
def length (lineage : Lineage) : Nat :=
  lineage.definitions.length

@[simp] theorem frame_make (namespaceName : String) (frame : Frame) (outer : Option Lineage) :
    (make namespaceName frame outer).frame = frame := by
  cases outer <;> rfl

@[simp] theorem outer?_make (namespaceName : String) (frame : Frame) (outer : Option Lineage) :
    (make namespaceName frame outer).outer? = outer := by
  cases outer <;> rfl

theorem length_pos (lineage : Lineage) : 0 < lineage.length := by
  cases lineage <;> exact Nat.succ_pos _

end Lineage

namespace Metadata

variable (m : Metadata)

/-- The chain of a definition whose row and whose outer chain are known. -/
def lineageOf (definition : Nat) (row : TypeDefinition) (outer : Option Lineage) :
    Except Error Lineage := do
  let name ← m.string row.nameIndex
  let namespaceName ← m.namespaceOf row (outer.map (·.namespaceName))
  let rows ← m.parametersOf row
  let parameters ← rows.mapM fun parameter => do
    return (parameter.number, ← m.string parameter.nameIndex)
  return .make namespaceName ⟨definition, row, name, parameters⟩ outer

/-- The chain of the type around a definition, if there is one; `resolve` gives the chain of a
definition. -/
def outerLineage (resolve : Nat → Except Error Lineage) (row : TypeDefinition) :
    Except Error (Option Lineage) :=
  match row.declaringTypeIndex with
  | none => return none
  | some index => do
    let outer ← m.declaringDefinition (← m.descriptor index)
    some <$> resolve outer

/-- The chain of a definition, along at most `links` definitions. -/
def lineageWithin : Nat → Nat → Except Error Lineage
  | 0, definition => .error (.unresolved (.declaringChain definition declaringLimit))
  | links + 1, definition => do
    let row ← m.typeDefinition definition
    let outer ← m.outerLineage (lineageWithin links) row
    m.lineageOf definition row outer

/-- **Chains.** The types around a type definition. There are no more of them than definitions. -/
def lineage (definition : Nat) : Except Error Lineage :=
  m.lineageWithin m.typeDefinitions.size definition

/-- A row names the definition that it is nested in. -/
def Declares (row : TypeDefinition) (outer : Nat) : Prop :=
  ∃ index descriptor, row.declaringTypeIndex = some index ∧ m.descriptor index = .ok descriptor ∧
    m.declaringDefinition descriptor = .ok outer

/-- A definition has a chain, of any length. -/
inductive Traces : Nat → Lineage → Prop
  /-- Nothing declares the definition. -/
  | top {definition : Nat} {row : TypeDefinition} {lineage : Lineage}
      (at_row : m.typeDefinition definition = .ok row)
      (alone : row.declaringTypeIndex = none)
      (made : m.lineageOf definition row none = .ok lineage) : Traces definition lineage
  /-- A definition that has a chain declares the definition. -/
  | nested {definition outer : Nat} {row : TypeDefinition} {lineage around : Lineage}
      (at_row : m.typeDefinition definition = .ok row)
      (inside : m.Declares row outer)
      (traced : Traces outer around)
      (made : m.lineageOf definition row (some around) = .ok lineage) : Traces definition lineage

variable {m} {definition : Nat} {lineage : Lineage} {row : TypeDefinition}

/-- What a chain is made of. -/
structure MadeOf (lineage : Lineage) (definition : Nat) (row : TypeDefinition)
    (outer : Option Lineage) : Prop where
  definition_eq : lineage.frame.definition = definition
  row_eq : lineage.frame.row = row
  outer_eq : lineage.outer? = outer
  definitions_eq : lineage.definitions = definition :: outer.elim [] Lineage.definitions

theorem madeOf_of_lineageOf {outer : Option Lineage}
    (h : m.lineageOf definition row outer = .ok lineage) : MadeOf lineage definition row outer := by
  obtain ⟨name, -, h⟩ := except_bind_eq_ok_iff.mp h
  obtain ⟨namespaceName, -, h⟩ := except_bind_eq_ok_iff.mp h
  obtain ⟨rows, -, h⟩ := except_bind_eq_ok_iff.mp h
  obtain ⟨parameters, -, h⟩ := except_bind_eq_ok_iff.mp h
  cases h
  cases outer <;> exact ⟨rfl, rfl, rfl, rfl⟩

/-- A chain whose parts can be read. -/
theorem lineageOf_eq_ok {outer : Option Lineage} {name namespaceName : String}
    {rows : List GenericParameter} {parameters : List (Nat × String)}
    (h_name : m.string row.nameIndex = .ok name)
    (h_namespace : m.namespaceOf row (outer.map (·.namespaceName)) = .ok namespaceName)
    (h_rows : m.parametersOf row = .ok rows)
    (h_parameters : (rows.mapM fun parameter => do
      return (parameter.number, ← m.string parameter.nameIndex)) = .ok parameters) :
    m.lineageOf definition row outer =
      .ok (.make namespaceName ⟨definition, row, name, parameters⟩ outer) := by
  refine except_bind_eq_ok_iff.mpr ⟨name, h_name, ?_⟩
  refine except_bind_eq_ok_iff.mpr ⟨namespaceName, h_namespace, ?_⟩
  refine except_bind_eq_ok_iff.mpr ⟨rows, h_rows, ?_⟩
  exact except_bind_eq_ok_iff.mpr ⟨parameters, h_parameters, rfl⟩

/-- A chain has the namespace and the path that its outer chain gives it. -/
theorem namespaceName_make {outer : Option Lineage} {namespaceName : String} (frame : Frame)
    (h : m.namespaceOf row (outer.map (·.namespaceName)) = .ok namespaceName) :
    (Lineage.make namespaceName frame outer).namespaceName = namespaceName ∧
      (Lineage.make namespaceName frame outer).qualifiedName =
        Name.qualified namespaceName (outer.map (·.qualifiedName)) frame.name := by
  cases outer with
  | none => exact ⟨rfl, rfl⟩
  | some around =>
    -- a nested type has no namespace of its own
    cases h
    exact ⟨rfl, rfl⟩

theorem outerLineage_eq_ok_iff {resolve : Nat → Except Error Lineage} {outer : Option Lineage} :
    m.outerLineage resolve row = .ok outer ↔
      row.declaringTypeIndex = none ∧ outer = none ∨
      ∃ index around, m.Declares row index ∧ resolve index = .ok around ∧ outer = some around := by
  unfold outerLineage Declares
  cases h_index : row.declaringTypeIndex with
  | none =>
    constructor
    · intro h
      cases h
      exact .inl ⟨rfl, rfl⟩
    · rintro (⟨-, rfl⟩ | ⟨_, _, ⟨_, _, h, -⟩, -⟩)
      · rfl
      · cases h
  | some index =>
    constructor
    · intro h
      -- the row names a definition, which has a chain or not
      obtain ⟨descriptor, h_descriptor, h⟩ := except_bind_eq_ok_iff.mp h
      obtain ⟨o, h_o, h⟩ := except_bind_eq_ok_iff.mp h
      cases h_resolve : resolve o with
      | error e =>
        rw [h_resolve] at h
        cases h
      | ok around =>
        rw [h_resolve] at h
        cases h
        exact .inr ⟨o, around, ⟨index, descriptor, rfl, h_descriptor, h_o⟩, h_resolve, rfl⟩
    · rintro (⟨h, -⟩ | ⟨o, around, ⟨_, descriptor, h_same, h_descriptor, h_o⟩, h_resolve, rfl⟩)
      · cases h
      · cases h_same
        refine except_bind_eq_ok_iff.mpr ⟨descriptor, h_descriptor, ?_⟩
        refine except_bind_eq_ok_iff.mpr ⟨o, h_o, ?_⟩
        rw [h_resolve]
        rfl

/-- **Chains, one type at a time.** The bounded computation gives the chain of a definition exactly
if it is within the bound. -/
theorem lineageWithin_eq_ok_iff {links : Nat} :
    m.lineageWithin links definition = .ok lineage ↔
      m.Traces definition lineage ∧ lineage.length ≤ links := by
  induction links generalizing definition lineage with
  | zero =>
    constructor
    · intro h
      cases h
    · rintro ⟨-, h_length⟩
      exact absurd lineage.length_pos (Nat.not_lt.mpr h_length)
  | succ links ih =>
    constructor
    · intro h
      obtain ⟨row, h_row, h⟩ := except_bind_eq_ok_iff.mp h
      obtain ⟨outer, h_outer, h_made⟩ := except_bind_eq_ok_iff.mp h
      obtain ⟨-, -, -, h_definitions⟩ := madeOf_of_lineageOf h_made
      rw [Lineage.length, h_definitions]
      -- the outer chain takes one link less
      rcases outerLineage_eq_ok_iff.mp h_outer with
        ⟨h_alone, rfl⟩ | ⟨index, around, h_inside, h_around, rfl⟩
      · exact ⟨.top h_row h_alone h_made, Nat.succ_le_succ (Nat.zero_le _)⟩
      · obtain ⟨h_traces, h_length⟩ := ih.mp h_around
        exact ⟨.nested h_row h_inside h_traces h_made, Nat.succ_le_succ h_length⟩
    · rintro ⟨h_traces, h_length⟩
      refine except_bind_eq_ok_iff.mpr ?_
      cases h_traces with
      | @top _ row _ h_row h_alone h_made =>
        refine ⟨row, h_row, except_bind_eq_ok_iff.mpr ⟨none, ?_, h_made⟩⟩
        exact outerLineage_eq_ok_iff.mpr (.inl ⟨h_alone, rfl⟩)
      | @nested _ index row _ around h_row h_inside h_around h_made =>
        obtain ⟨-, -, -, h_definitions⟩ := madeOf_of_lineageOf h_made
        rw [Lineage.length, h_definitions] at h_length
        have h_inner := ih.mpr ⟨h_around, Nat.le_of_succ_le_succ h_length⟩
        refine ⟨row, h_row, except_bind_eq_ok_iff.mpr ⟨some around, ?_, h_made⟩⟩
        exact outerLineage_eq_ok_iff.mpr (.inr ⟨index, around, h_inside, h_inner, rfl⟩)

/-- A definition has one chain. -/
theorem Traces.unique {lineage' : Lineage} (h : m.Traces definition lineage)
    (h' : m.Traces definition lineage') : lineage = lineage' := by
  -- a computation with room for both gives both
  have h_long := lineageWithin_eq_ok_iff.mpr
    ⟨h, Nat.le_max_left lineage.length lineage'.length⟩
  rw [lineageWithin_eq_ok_iff.mpr ⟨h', Nat.le_max_right lineage.length lineage'.length⟩] at h_long
  exact (Except.ok.inj h_long).symm

theorem Traces.frame_definition (h : m.Traces definition lineage) :
    lineage.frame.definition = definition := by
  cases h with
  | top _ _ h_made => exact (madeOf_of_lineageOf h_made).definition_eq
  | nested _ _ _ h_made => exact (madeOf_of_lineageOf h_made).definition_eq

theorem Traces.mem_definitions (h : m.Traces definition lineage) :
    definition ∈ lineage.definitions := by
  cases h with
  | top _ _ h_made | nested _ _ _ h_made =>
    rw [(madeOf_of_lineageOf h_made).definitions_eq]
    exact List.mem_cons_self

theorem Traces.typeDefinition_eq (h : m.Traces definition lineage) :
    m.typeDefinition definition = .ok lineage.frame.row := by
  cases h with
  | top h_row _ h_made => rw [(madeOf_of_lineageOf h_made).row_eq, h_row]
  | nested h_row _ _ h_made => rw [(madeOf_of_lineageOf h_made).row_eq, h_row]

/-- The chain of a nested type goes on with that of the type around it. -/
theorem Traces.outer {around : Lineage} (h : m.Traces definition lineage)
    (h_outer : lineage.outer? = some around) : m.Traces around.frame.definition around := by
  cases h with
  | top _ _ h_made =>
    rw [(madeOf_of_lineageOf h_made).outer_eq] at h_outer
    cases h_outer
  | nested _ _ h_around h_made =>
    rw [(madeOf_of_lineageOf h_made).outer_eq] at h_outer
    cases h_outer
    rwa [h_around.frame_definition]

theorem Traces.definitions_eq {around : Lineage} (h : m.Traces definition lineage)
    (h_outer : lineage.outer? = some around) :
    lineage.definitions = definition :: around.definitions := by
  cases h with
  | top _ _ h_made | nested _ _ _ h_made =>
    obtain ⟨-, -, h_same, h_definitions⟩ := madeOf_of_lineageOf h_made
    rw [h_definitions, ← h_same, h_outer]
    rfl

theorem lt_size_of_typeDefinition (h : m.typeDefinition definition = .ok row) :
    definition < m.typeDefinitions.size := by
  unfold typeDefinition at h
  split at h
  next h_at => exact (Array.getElem?_eq_some_iff.mp h_at).1
  next => cases h

theorem Traces.lt_size (h : m.Traces definition lineage) : definition < m.typeDefinitions.size :=
  lt_size_of_typeDefinition h.typeDefinition_eq

/-- Every definition of a chain has a chain that is no longer. -/
theorem Traces.exists_of_mem (h : m.Traces definition lineage) {d : Nat}
    (h_d : d ∈ lineage.definitions) :
    ∃ lineage', m.Traces d lineage' ∧ lineage'.length ≤ lineage.length := by
  induction h with
  | top h_row h_alone h_made =>
    rw [(madeOf_of_lineageOf h_made).definitions_eq] at h_d
    obtain rfl := List.mem_singleton.mp h_d
    exact ⟨_, .top h_row h_alone h_made, Nat.le_refl _⟩
  | nested h_row h_inside h_around h_made ih =>
    rw [(madeOf_of_lineageOf h_made).definitions_eq] at h_d
    rcases List.mem_cons.mp h_d with rfl | h_d
    · exact ⟨_, .nested h_row h_inside h_around h_made, Nat.le_refl _⟩
    · obtain ⟨lineage', h_traces, h_length⟩ := ih h_d
      rw [Lineage.length, (madeOf_of_lineageOf h_made).definitions_eq]
      exact ⟨lineage', h_traces, Nat.le_succ_of_le h_length⟩

/-- No definition is inside itself. -/
theorem Traces.definitions_nodup (h : m.Traces definition lineage) :
    lineage.definitions.Nodup := by
  induction h with
  | top _ _ h_made =>
    rw [(madeOf_of_lineageOf h_made).definitions_eq]
    exact List.nodup_singleton _
  | nested h_row h_inside h_around h_made ih =>
    have h_definitions := (madeOf_of_lineageOf h_made).definitions_eq
    rw [h_definitions]
    refine List.nodup_cons.mpr ⟨fun h_mem => ?_, ih⟩
    -- the whole chain would be one of its own parts
    obtain ⟨lineage', h_traces, h_length⟩ := h_around.exists_of_mem h_mem
    rw [← Traces.unique (.nested h_row h_inside h_around h_made) h_traces, Lineage.length,
      h_definitions] at h_length
    exact Nat.not_succ_le_self _ h_length

/-- **A chain is no longer than the table.** -/
theorem Traces.length_le (h : m.Traces definition lineage) :
    lineage.length ≤ m.typeDefinitions.size := by
  have h_subset : lineage.definitions ⊆ List.range m.typeDefinitions.size := by
    intro d h_d
    obtain ⟨lineage', h_traces, -⟩ := h.exists_of_mem h_d
    exact List.mem_range.mpr h_traces.lt_size
  -- as many different definitions as types, all of them in the table
  have h_le := List.Nodup.length_le_of_subset h.definitions_nodup h_subset
  rwa [List.length_range] at h_le

/-- **Every chain that ends is found.** -/
theorem lineage_eq_ok_iff : m.lineage definition = .ok lineage ↔ m.Traces definition lineage := by
  rw [Metadata.lineage, lineageWithin_eq_ok_iff]
  exact ⟨fun h => h.1, fun h => ⟨h, h.length_le⟩⟩

/-- The chain of a definition, by the chain of the type around it. -/
theorem lineage_eq_ok_iff_step : m.lineage definition = .ok lineage ↔
    (do
      let row ← m.typeDefinition definition
      let outer ← m.outerLineage m.lineage row
      m.lineageOf definition row outer) = .ok lineage := by
  -- one step more than the table has entries finds nothing new
  have h_step : m.lineageWithin (m.typeDefinitions.size + 1) definition = .ok lineage ↔
      m.Traces definition lineage ∧ lineage.length ≤ m.typeDefinitions.size + 1 :=
    lineageWithin_eq_ok_iff
  rw [lineage_eq_ok_iff]
  refine Iff.trans ?_ h_step.symm
  exact ⟨fun h => ⟨h, Nat.le_succ_of_le h.length_le⟩, fun h => h.1⟩

end Metadata
end GlobalMetadata
