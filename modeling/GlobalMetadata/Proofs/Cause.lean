import GlobalMetadata.Graph.Reference
import GlobalMetadata.Proofs.Reading

/-!
# What can be wrong with stored data

Resolution fails because of something that is stored. `Metadata.Explains` lists what this can be,
each with the error that tells of it:

* an index that is stored in a table or in the image points outside of its target; `StoredIndex` has
  all indices that are followed, `Metadata.Stores` where they stand, and `StoredIndex.error` what is
  said about them;
* what is referred to is there, but the reference cannot be followed (`Metadata.Obstructs`);
* the bytes of a name have no end or are not UTF-8;
* the image does not back what the registration tables lead to (`Metadata.Links`, `Image.Lacks`), or
  what is there is a descriptor of an unknown kind.

Names are the only indices of which it is not said that they dangle
(`StoredIndex.isRecoverable_error_iff`).
-/

namespace GlobalMetadata

/-! ### What the registration tables lead to -/

/-- Something that the registration tables lead to. -/
inductive Link
  /-- A descriptor. -/
  | descriptor (d : Descriptor)
  /-- A descriptor, by its address. -/
  | descriptorAt (address : Nat)
  /-- An instantiated type. -/
  | generic (g : GenericClass)
  /-- An instantiated type, by its address. -/
  | genericAt (address : Nat)
  /-- An argument list. -/
  | list (inst : GenericInst)
  /-- An argument list, by its address. -/
  | listAt (address : Nat)
  /-- An array shape, by its address. -/
  | shapeAt (address : Nat)

/-- What is looked up in the image for a link, if anything is: an address and a number of bytes. -/
def Link.extent (m : Metadata) : Link → Option (Nat × Nat)
  | .descriptor _ | .generic _ => none
  | .descriptorAt address => some (address, m.registration.layouts.descriptor.size)
  | .genericAt address => some (address, m.registration.layouts.genericClass.size)
  | .list inst =>
    if inst.count = 0 then none
    else some (inst.address, inst.count * m.registration.image.pointerWidth.bytes)
  | .listAt address => some (address, m.registration.layouts.genericInst.size)
  | .shapeAt address => some (address, m.registration.layouts.arrayType.size)

/-- **Links.** What is listed in the registration tables, and what can be come to from there. -/
inductive Metadata.Links (m : Metadata) : Link → Prop
  /-- A listed descriptor. -/
  | type {d : Descriptor} (listed : d ∈ m.registration.types) : Links m (.descriptor d)
  /-- A listed instantiation. -/
  | instantiated {address : Nat} (listed : address ∈ m.registration.genericClasses) :
      Links m (.genericAt address)
  /-- The element of an array, a pointer or a reference. -/
  | element {d : Descriptor} {address : Nat} (before : Links m (.descriptor d))
      (stored : d.payload = .element address) : Links m (.descriptorAt address)
  /-- The shape of an array. -/
  | array {d : Descriptor} {address : Nat} (before : Links m (.descriptor d))
      (stored : d.payload = .array address) : Links m (.shapeAt address)
  /-- An instantiation. -/
  | instantiation {d : Descriptor} {address : Nat} (before : Links m (.descriptor d))
      (stored : d.payload = .instantiation address) : Links m (.genericAt address)
  /-- The element of an array with a shape. -/
  | shape {address : Nat} {shape : ArrayShape} (before : Links m (.shapeAt address))
      (read : m.registration.arrayTypeAt address = .ok shape) :
      Links m (.descriptorAt shape.element)
  /-- The definition of an instantiation. -/
  | definition {g : GenericClass} {address : Nat} (before : Links m (.generic g))
      (stored : g.definition = .type address) : Links m (.descriptorAt address)
  /-- The arguments of a type. -/
  | classArguments {g : GenericClass} (before : Links m (.generic g)) (some : g.classInst ≠ 0) :
      Links m (.listAt g.classInst)
  /-- The arguments of a method. -/
  | methodArguments {g : GenericClass} (before : Links m (.generic g)) (some : g.methodInst ≠ 0) :
      Links m (.listAt g.methodInst)
  /-- One of the arguments in a list. -/
  | argument {inst : GenericInst} {addresses : List Nat} {address : Nat}
      (before : Links m (.list inst))
      (read : inst.arguments m.registration.image = .ok addresses) (listed : address ∈ addresses) :
      Links m (.descriptorAt address)
  /-- What is at the address of a descriptor. -/
  | descriptor {address : Nat} {d : Descriptor} (before : Links m (.descriptorAt address))
      (read : m.registration.typeAt address = .ok d) : Links m (.descriptor d)
  /-- What is at the address of an instantiated type. -/
  | generic {address : Nat} {g : GenericClass} (before : Links m (.genericAt address))
      (read : m.registration.genericClassAt address = .ok g) : Links m (.generic g)
  /-- What is at the address of an argument list. -/
  | list {address : Nat} {inst : GenericInst} (before : Links m (.listAt address))
      (read : m.registration.genericInstAt address = .ok inst) : Links m (.list inst)

/-! ### Stored indices -/

/-- An index that is followed. -/
inductive StoredIndex
  /-- The place of a name. -/
  | name (index : Nat)
  /-- A type descriptor. -/
  | type (index : Nat)
  /-- A type definition. -/
  | definition (index : Nat)
  /-- A generic parameter. -/
  | parameter (index : Nat)
  /-- A generic container. -/
  | container (index : Nat)
  /-- The parameters of a generic container. -/
  | parameters (index : Nat) (start : Option Nat) (count : Nat)
  /-- A run of members. -/
  | members (table : MemberTable) (start : Int) (count : Nat)
  /-- An entry among the nested types of a definition. -/
  | nested (owner : Nat) (entry : Int)

namespace Metadata

/-- The number of rows of a member table. -/
def sizeOf (m : Metadata) : MemberTable → Nat
  | .field => m.fields.size
  | .method => m.methods.size
  | .parameter => m.parameters.size
  | .nestedType => m.nestedTypes.size

/-- **Stored indices**, each with the column of a table, the descriptor or the structure of the
image that it stands in. -/
inductive Stores (m : Metadata) : StoredIndex → Prop
  /-- The name of a definition. -/
  | typeName {row : TypeDefinition} (listed : row ∈ m.typeDefinitions) :
      Stores m (.name row.nameIndex)
  /-- The namespace of a definition. -/
  | namespaceName {row : TypeDefinition} (listed : row ∈ m.typeDefinitions) :
      Stores m (.name row.namespaceIndex)
  /-- The name of a field. -/
  | fieldName {row : FieldDefinition} (listed : row ∈ m.fields) : Stores m (.name row.nameIndex)
  /-- The name of a method. -/
  | methodName {row : MethodDefinition} (listed : row ∈ m.methods) : Stores m (.name row.nameIndex)
  /-- The name of a parameter. -/
  | parameterName {row : ParameterDefinition} (listed : row ∈ m.parameters) :
      Stores m (.name row.nameIndex)
  /-- The name of a generic parameter. -/
  | genericParameterName {row : GenericParameter} (listed : row ∈ m.genericParameters) :
      Stores m (.name row.nameIndex)
  /-- The type around a definition. -/
  | declaringType {row : TypeDefinition} {index : Nat} (listed : row ∈ m.typeDefinitions)
      (stored : row.declaringTypeIndex = some index) : Stores m (.type index)
  /-- The underlying type of an enumeration. -/
  | elementType {row : TypeDefinition} {index : Nat} (listed : row ∈ m.typeDefinitions)
      (stored : row.elementTypeIndex = some index) : Stores m (.type index)
  /-- The type of a field. -/
  | fieldType {row : FieldDefinition} {index : Nat} (listed : row ∈ m.fields)
      (stored : row.typeIndex = some index) : Stores m (.type index)
  /-- The result of a method. -/
  | returnType {row : MethodDefinition} {index : Nat} (listed : row ∈ m.methods)
      (stored : row.returnType = some index) : Stores m (.type index)
  /-- The type of a parameter. -/
  | parameterType {row : ParameterDefinition} {index : Nat} (listed : row ∈ m.parameters)
      (stored : row.typeIndex = some index) : Stores m (.type index)
  /-- The definition in a descriptor. -/
  | definition {d : Descriptor} {index : Nat} (linked : m.Links (.descriptor d))
      (stored : d.payload = .definition index) : Stores m (.definition index)
  /-- The definition of an instantiated type. -/
  | instantiated {g : GenericClass} {index : Nat} (linked : m.Links (.generic g))
      (stored : g.definition = .row index) : Stores m (.definition index)
  /-- The generic parameter in a descriptor. -/
  | parameter {d : Descriptor} {index : Nat} (linked : m.Links (.descriptor d))
      (stored : d.payload = .parameter index) : Stores m (.parameter index)
  /-- The generic container of a definition. -/
  | container {row : TypeDefinition} {index : Nat} (listed : row ∈ m.typeDefinitions)
      (stored : row.genericContainerIndex = some index) : Stores m (.container index)
  /-- The generic parameters of a definition. -/
  | parameters {row : TypeDefinition} {index : Nat} {container : GenericContainer}
      (listed : row ∈ m.typeDefinitions) (stored : row.genericContainerIndex = some index)
      (found : m.genericContainers[index]? = some container) :
      Stores m (.parameters index container.parameterStart container.parameterCount)
  /-- The fields of a definition. -/
  | fields {row : TypeDefinition} (listed : row ∈ m.typeDefinitions) :
      Stores m (.members .field row.fieldStart row.fieldCount)
  /-- The methods of a definition. -/
  | methods {row : TypeDefinition} (listed : row ∈ m.typeDefinitions) :
      Stores m (.members .method row.methodStart row.methodCount)
  /-- The parameters of a method. -/
  | methodParameters {row : MethodDefinition} (listed : row ∈ m.methods) :
      Stores m (.members .parameter row.parameterStart row.parameterCount)
  /-- The nested types of a definition. -/
  | nestedTypes {row : TypeDefinition} (listed : row ∈ m.typeDefinitions) :
      Stores m (.members .nestedType row.nestedTypesStart row.nestedTypeCount)
  /-- An entry among the nested types. -/
  | nested {owner : Nat} {entry : Int} (listed : entry ∈ m.nestedTypes) :
      Stores m (.nested owner entry)

end Metadata

namespace StoredIndex

/-- An index points outside of its target. The run of an empty list of members may start anywhere,
but not that of an empty list of generic parameters. -/
def IsOutside (m : Metadata) : StoredIndex → Prop
  | .name index => m.strings.data.size ≤ index
  | .type index => m.registration.types.size ≤ index
  | .definition index => m.typeDefinitions.size ≤ index
  | .parameter index => m.genericParameters.size ≤ index
  | .container index => m.genericContainers.size ≤ index
  | .parameters _ none count => count ≠ 0
  | .parameters _ (some start) count => m.genericParameters.size < start + count
  | .members table start count => count ≠ 0 ∧ (start < 0 ∨ m.sizeOf table < start + count)
  | .nested _ entry => entry < 0 ∨ m.typeDefinitions.size ≤ entry

/-- **What is said** about an index that points outside of its target. -/
def error (m : Metadata) : StoredIndex → Error
  | .name _ => .outOfBounds
  | .type index => .unresolved (.typeIndex index m.registration.types.size)
  | .definition index => .unresolved (.typeDefinition index m.typeDefinitions.size)
  | .parameter index => .unresolved (.genericParameter index m.genericParameters.size)
  | .container index => .unresolved (.container index m.genericContainers.size)
  | .parameters index none count => .unresolved (.containerStart index count)
  | .parameters index (some start) count =>
    .unresolved (.containerRange start (start + count) index m.genericParameters.size)
  | .members table start count =>
    .unresolved (.members table start (start + count) (m.sizeOf table))
  | .nested owner entry =>
    .unresolved <|
      match toIndex? entry with
      | none => .nestedIndex owner entry
      | some position => .typeDefinition position m.typeDefinitions.size

/-- Names are the only indices about which it is not said that they dangle. -/
theorem isRecoverable_error_iff (m : Metadata) (i : StoredIndex) :
    (i.error m).isRecoverable = true ↔ ∀ index, i ≠ .name index := by
  cases i with
  | name index => exact iff_of_false (fun h => by cases h) fun h => h index rfl
  | parameters index start count =>
    cases start <;> exact iff_of_true rfl fun _ h => by cases h
  | _ => exact iff_of_true rfl fun _ h => by cases h

end StoredIndex

/-! ### Causes of errors -/

/-- The bytes at an address are not backed by the image. -/
inductive Image.Lacks (image : Image) (address length : Nat) : Error → Prop
  /-- No segment covers the address. -/
  | uncovered (nowhere : ∀ s ∈ image.segments, s.translate address = none) :
      Lacks image address length (.unmapped address)
  /-- The file ends before the bytes do. -/
  | short {offset : Nat} (covered : image.offsetOf address = .ok offset)
      (beyond : image.data.size < offset + length) : Lacks image address length .outOfBounds
  /-- No address space holds so many bytes. -/
  | endless (beyond : addressLimit ≤ length) : Lacks image address length .outOfBounds

namespace Metadata

/-- A reference does not point outside of its target, but cannot be followed. -/
inductive Obstructs (m : Metadata) : Dangling → Prop
  /-- There are too many types around a definition. -/
  | declaringChain (definition : Nat) : Obstructs m (.declaringChain definition declaringLimit)
  /-- Descriptors are nested too deeply. -/
  | descriptorNesting (kind : TypeKind) : Obstructs m (.descriptorNesting kind nestingLimit)
  /-- A field has no type. -/
  | fieldType {row : FieldDefinition} {name : String} (listed : row ∈ m.fields)
      (named : m.string row.nameIndex = .ok name) (untyped : row.typeIndex = none) :
      Obstructs m (.fieldType name)
  /-- A parameter has no type. -/
  | parameterType {row : ParameterDefinition} {name : String} (listed : row ∈ m.parameters)
      (named : m.string row.nameIndex = .ok name) (untyped : row.typeIndex = none) :
      Obstructs m (.parameterType name)
  /-- The entry among the nested types of a definition is a type that another one declares. -/
  | nestedOwner {owner position : Nat} (listed : (position : Int) ∈ m.nestedTypes) :
      Obstructs m (.nestedOwner owner position)
  /-- The definition of an instantiation is no type definition. -/
  | instantiated {g : GenericClass} {address : Nat} {d : Descriptor} (linked : m.Links (.generic g))
      (stored : g.definition = .type address) (read : m.registration.typeAt address = .ok d)
      (other : ∀ index, d.payload ≠ .definition index) :
      Obstructs m (.instantiated address d.payload)
  /-- The definition of an instantiation has a negative index. -/
  | instantiatedIndex {address : Nat} {record : Record} {index : Int}
      (linked : m.Links (.genericAt address))
      (read : m.registration.image.record m.registration.layouts.genericClass address = .ok record)
      (stored : record.int32 .typeDefinitionIndex = .ok index) (negative : index < 0) :
      Obstructs m (.instantiatedIndex index)
  /-- The type around a definition is neither a type definition nor an instantiation of one. -/
  | declaringType {d : Descriptor} (linked : m.Links (.descriptor d))
      (other : ∀ index, d.payload ≠ .definition index)
      (unlike : ∀ address, d.payload ≠ .instantiation address) :
      Obstructs m (.declaringType d.payload)

/-- **Causes.** What is wrong with the stored data, with the error that tells of it. -/
inductive Explains (m : Metadata) : Error → Prop
  /-- A stored index points outside of its target. -/
  | outside {i : StoredIndex} (stored : m.Stores i) (outside : i.IsOutside m) :
      Explains m (i.error m)
  /-- A reference cannot be followed otherwise. -/
  | obstructed {d : Dangling} (h : m.Obstructs d) : Explains m (.unresolved d)
  /-- There is no zero byte behind the start of a name. -/
  | unterminated {index : Nat} (stored : m.Stores (.name index))
      (inside : index < m.strings.data.size)
      (endless : ∀ i (h : i < m.strings.data.size), index ≤ i → m.strings.data.get i h ≠ 0) :
      Explains m (.malformed (.nameUnterminated index))
  /-- The bytes of a name are not UTF-8. -/
  | encoding {index : Nat} {bytes : List UInt8} (stored : m.Stores (.name index))
      (terminated : Bytes.terminated? m.strings.data index = some bytes)
      (ill_formed : Utf8.decode? bytes = none) : Explains m (.malformed (.nameEncoding index))
  /-- The image does not back what the registration tables lead to. -/
  | unbacked {link : Link} {address length : Nat} {e : Error} (linked : m.Links link)
      (extent : link.extent m = some (address, length))
      (lacks : m.registration.image.Lacks address length e) : Explains m e
  /-- The kind of a descriptor is unknown. -/
  | kind {address word : Nat} {record : Record} (linked : m.Links (.descriptorAt address))
      (read : m.registration.image.record m.registration.layouts.descriptor address = .ok record)
      (stored : record.uint32 .bits = .ok word)
      (unknown : TypeKind.ofTag? (Descriptor.tagOf word) = none) :
      Explains m (.malformed (.kindTag (Descriptor.tagOf word)))

end Metadata

end GlobalMetadata
