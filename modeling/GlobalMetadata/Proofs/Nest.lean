import GlobalMetadata.Proofs.Lineage

/-!
# Nests of types

`Metadata.nest n` has `n` type definitions, each of them inside the next one, and nothing else. Its
chains are as long as chains over so many definitions can be (`Metadata.exists_traces_nest`), so
that every limit on the length of chains is met and exceeded by some metadata.
-/

namespace GlobalMetadata

/-- The layout of structures of 32-bit images. -/
def boxedLayout (kind : RecordKind) : ResolvedLayout :=
  ⟨kind, ⟨24, 0⟩, .bits32, (Layout.of kind).present (.uniform ⟨24, 0⟩)⟩

namespace Metadata

/-- Metadata without anything in it, over an image without any bytes. -/
def bare : Metadata where
  pair := .uniform ⟨24, 0⟩
  header := ⟨⟨.metadataHeader, ⟨24, 0⟩, []⟩, 24⟩
  strings := ⟨.empty⟩
  literals := ⟨#[], .empty⟩
  images := #[]
  assemblies := #[]
  typeDefinitions := #[]
  methods := #[]
  parameters := #[]
  fields := #[]
  properties := #[]
  events := #[]
  genericContainers := #[]
  genericParameters := #[]
  genericParameterConstraints := #[]
  nestedTypes := #[]
  interfaces := #[]
  vtableMethods := #[]
  fieldDefaultValues := #[]
  parameterDefaultValues := #[]
  defaultValueData := .empty
  fieldMarshaledSizes := #[]
  attributeTypeRanges := #[]
  attributeTypes := #[]
  attributeDataRanges := #[]
  attributeData := .empty
  fieldRefs := #[]
  referencedAssemblies := #[]
  exportedTypeDefinitions := #[]
  registration :=
    { image := ⟨.flat, .empty, [], .bits64, .little⟩
      pair := .uniform ⟨24, 0⟩
      code := ⟨none, ⟨0, 0⟩, ⟨0, 0⟩, none⟩
      metadata := ⟨⟨0, 0⟩, ⟨0, 0⟩, ⟨0, 0⟩, ⟨0, 0⟩, ⟨0, 0⟩, ⟨0, 0⟩, ⟨0, 0⟩, none⟩
      types := #[]
      typeAddresses := #[]
      genericClasses := #[]
      genericInsts := #[]
      methodSpecs := #[]
      genericMethods := #[]
      modules := #[]
      methodPointers := #[]
      layouts :=
        { descriptor := ⟨.typeDescriptor, ⟨24, 0⟩, .bits64, []⟩
          genericClass := ⟨.genericClass, ⟨24, 0⟩, .bits64, []⟩
          genericInst := ⟨.genericInst, ⟨24, 0⟩, .bits64, []⟩
          arrayType := ⟨.arrayType, ⟨24, 0⟩, .bits64, []⟩ } }

/-- The row of a type that is called by the first name of the heap and has no members. -/
def nestedRow (declaring : Option Nat) : TypeDefinition where
  nameIndex := 0
  namespaceIndex := 1
  byvalTypeIndex := none
  byrefTypeIndex := none
  declaringTypeIndex := declaring
  parentIndex := none
  elementTypeIndex := none
  genericContainerIndex := none
  flags := 0
  fieldStart := 0
  methodStart := 0
  eventStart := 0
  propertyStart := 0
  nestedTypesStart := 0
  interfacesStart := 0
  vtableStart := 0
  interfaceOffsetsStart := 0
  methodCount := 0
  propertyCount := 0
  fieldCount := 0
  eventCount := 0
  nestedTypeCount := 0
  vtableCount := 0
  interfacesCount := 0
  interfaceOffsetsCount := 0
  bitfield := 0
  token := none

/-- The heap of the names "T" and "". -/
def nestStrings : StringHeap :=
  ⟨⟨#[0x54, 0]⟩⟩

/-- **Nests.** `n` type definitions, each of them inside the next one. -/
def nest (n : Nat) : Metadata :=
  { bare with
    strings := nestStrings
    typeDefinitions := Array.ofFn fun i : Fin n =>
      nestedRow (if i + 1 < n then some (i + 1) else none)
    registration :=
      { bare.registration with
        types := Array.ofFn fun i : Fin n => ⟨0, .classType, 0, false, false, .definition i⟩ } }

section Nest

variable {n i : Nat}

theorem size_nest (n : Nat) : (nest n).typeDefinitions.size = n :=
  Array.size_ofFn

theorem typeDefinition_nest (h : i < n) :
    (nest n).typeDefinition i = .ok (nestedRow (if i + 1 < n then some (i + 1) else none)) := by
  -- the table has just these rows
  have h_at : (nest n).typeDefinitions[i]? =
      some (nestedRow (if i + 1 < n then some (i + 1) else none)) := by
    rw [nest, Array.getElem?_ofFn, dif_pos h]
  rw [typeDefinition, h_at]

theorem declares_nest {row : TypeDefinition} (h : i < n) (h_row : row.declaringTypeIndex = some i) :
    (nest n).Declares row i := by
  refine ⟨i, ⟨0, .classType, 0, false, false, .definition i⟩, h_row, ?_, rfl⟩
  have h_at : (nest n).registration.types[i]? =
      some ⟨0, .classType, 0, false, false, .definition i⟩ := by
    rw [nest, Array.getElem?_ofFn, dif_pos h]
  rw [descriptor, h_at]

/-- Every type of a nest can be named. -/
theorem exists_lineageOf_nest (n i : Nat) (declaring : Option Nat) (outer : Option Lineage) :
    ∃ lineage, (nest n).lineageOf i (nestedRow declaring) outer = .ok lineage := by
  cases outer with
  | none => exact ⟨.top "" ⟨i, nestedRow declaring, "T", []⟩, rfl⟩
  | some around => exact ⟨.nested ⟨i, nestedRow declaring, "T", []⟩ around, rfl⟩

/-- **Chains of every length.** The types around a type of a nest are all that come after it. -/
theorem exists_traces_nest (h : i < n) :
    ∃ lineage, (nest n).Traces i lineage ∧ lineage.length + i = n := by
  induction h_left : n - i - 1 generalizing i with
  | zero =>
    -- the last type is inside none
    obtain rfl : n = i + 1 := by omega
    have h_row := typeDefinition_nest h
    rw [if_neg (Nat.lt_irrefl _)] at h_row
    obtain ⟨lineage, h_made⟩ := exists_lineageOf_nest (i + 1) i none none
    refine ⟨lineage, .top h_row rfl h_made, ?_⟩
    rw [Lineage.length, (madeOf_of_lineageOf h_made).definitions_eq]
    exact Nat.add_comm 1 i
  | succ left ih =>
    have h_next : i + 1 < n := by omega
    -- all others are inside the next one
    obtain ⟨around, h_around, h_length⟩ := ih h_next (by omega)
    have h_row := typeDefinition_nest h
    rw [if_pos h_next] at h_row
    obtain ⟨lineage, h_made⟩ := exists_lineageOf_nest n i (some (i + 1)) (some around)
    refine ⟨lineage, .nested h_row (declares_nest h_next rfl) h_around h_made, ?_⟩
    rw [Lineage.length, (madeOf_of_lineageOf h_made).definitions_eq, ← h_length]
    exact Nat.add_right_comm around.length 1 i

end Nest

end Metadata

end GlobalMetadata
