import GlobalMetadata.Metadata

/-!
# Following indices

The tables refer to each other by index, and nothing promises that an index points anywhere. Every
look-up here says in its error what was asked for. A run of members is given by a start and a count;
the start of an empty run is never looked at.
-/

namespace GlobalMetadata

/-- The run of `count` entries from `start` on in a table with `size` entries, as a start and an
end. -/
def runOf? (start count size : Nat) : Option (Nat × Nat) :=
  if start + count ≤ size then some (start, start + count) else none

namespace Metadata

/-- The type descriptor with a given index. -/
def descriptor (m : Metadata) (index : Nat) : Except Error Descriptor :=
  match m.registration.types[index]? with
  | some descriptor => .ok descriptor
  | none => .error (.unresolved (.typeIndex index m.registration.types.size))

/-- The type definition with a given index. -/
def typeDefinition (m : Metadata) (index : Nat) : Except Error TypeDefinition :=
  match m.typeDefinitions[index]? with
  | some row => .ok row
  | none => .error (.unresolved (.typeDefinition index m.typeDefinitions.size))

/-- The run of members of one owner in a table with `size` entries. -/
def members (table : MemberTable) (start : Int) (count size : Nat) : Except Error (Nat × Nat) :=
  if count = 0 then .ok (0, 0)
  else
    match toIndex? start >>= (runOf? · count size) with
    | some run => .ok run
    | none => .error (.unresolved (.members table start (start + count) size))

/-- The members of one owner: the run of `count` entries from `start` on in their table. -/
def memberRows {α : Type} (table : MemberTable) (entries : Array α) (start : Int) (count : Nat) :
    Except Error (List α) := do
  let (first, last) ← members table start count entries.size
  return (entries.extract first last).toList

/-- The namespace of a class: that of the class around it, or else its own. -/
def namespaceOf (m : Metadata) (row : TypeDefinition) (outer : Option String) :
    Except Error String :=
  match outer with
  | some namespaceName => .ok namespaceName
  | none => m.string row.namespaceIndex

/-- The type definition that an instantiated type instantiates. -/
def instantiatedDefinition (m : Metadata) (generic : GenericClass) : Except Error Nat :=
  match generic.definition with
  | .row index => .ok index
  | .type address => do
    match (← m.registration.typeAt address).payload with
    | .definition index => return index
    | payload => throw (.unresolved (.instantiated address payload))

/-- The type definition that the descriptor of a declaring type names. -/
def declaringDefinition (m : Metadata) (descriptor : Descriptor) : Except Error Nat :=
  match descriptor.payload with
  | .definition index => .ok index
  | .instantiation address => do
    m.instantiatedDefinition (← m.registration.genericClassAt address)
  | payload => .error (.unresolved (.declaringType payload))

/-- The generic parameter with a given index. -/
def genericParameter (m : Metadata) (index : Nat) : Except Error GenericParameter :=
  match m.genericParameters[index]? with
  | some row => .ok row
  | none => .error (.unresolved (.genericParameter index m.genericParameters.size))

/-- The generic parameters that a type definition declares, in order. -/
def parametersOf (m : Metadata) (row : TypeDefinition) : Except Error (List GenericParameter) := do
  let some index := row.genericContainerIndex | return []
  let some container := m.genericContainers[index]?
    | throw (.unresolved (.container index m.genericContainers.size))
  let count := container.parameterCount
  let start ←
    match container.parameterStart with
    | some start => pure start
    | none =>
      if count = 0 then pure 0 else throw (.unresolved (.containerStart index count))
  match runOf? start count m.genericParameters.size with
  | some (first, last) => return (m.genericParameters.extract first last).toList
  | none =>
    throw (.unresolved (.containerRange start (start + count) index m.genericParameters.size))

/-! ### Modules and their definitions -/

/-- The run of type definitions that a managed module declares, cut off at the end of their table. A
module with a negative start declares none. -/
def definitionsOf (m : Metadata) (image : ImageDefinition) : List Nat :=
  match toIndex? image.typeStart with
  | none => []
  | some start => List.range' start (min (start + image.typeCount) m.typeDefinitions.size - start)

/-- Whether a managed module declares a type definition. -/
def declares (image : ImageDefinition) (definition : Nat) : Bool :=
  match toIndex? image.typeStart with
  | none => false
  | some start => start ≤ definition && definition < start + image.typeCount

/-- The last of the first `count` managed modules that declares a type definition. -/
def imageAmong (m : Metadata) (definition : Nat) (count : Nat) : Option Nat :=
  match count with
  | 0 => none
  | image + 1 =>
    if (m.images[image]?).any (declares · definition) then some image
    else imageAmong m definition image

/-- The managed module that declares a type definition; where runs overlap, the last one counts. -/
def imageOf (m : Metadata) (definition : Nat) : Option Nat :=
  imageAmong m definition m.images.size

end Metadata

end GlobalMetadata
