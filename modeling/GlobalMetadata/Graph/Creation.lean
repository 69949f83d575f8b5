import GlobalMetadata.Graph.Arena
import GlobalMetadata.Graph.Lookup

/-!
# Creating classes

Resolution works on an arena and may fail; what has been created before a failure stays. A class is
created without its members, from its key alone: its names, its declaring class and its generic
parameters. From then on its key is found in the arena, so that a member that refers back to the
class at hand finds it and does not create it again.

A nested type is created after the type around it. A chain of such types is followed for at most
`declaringLimit` links, so that types declared by each other are refused.
-/

namespace GlobalMetadata

/-- A step of resolution: it changes the arena, also when it fails. -/
abbrev Resolving :=
  ExceptT Error (StateM Arena)

/-- The longest chain of declaring types that is followed. -/
def declaringLimit : Nat :=
  64

namespace Resolving

/-- The id of a type, which is added on first sight. -/
def intern (type : ResolvedType) : Resolving TypeId :=
  modifyGet (·.intern type)

/-- The id of a class, which is added unless there is one with its key. -/
def insert (c : ResolvedClass) : Resolving ClassId :=
  modifyGet (·.insert c)

/-- The id of the type that a class is. -/
def classType (id : ClassId) : Resolving TypeId :=
  intern (.class id)

/-- The open type that a generic parameter is in its own context. -/
def openParameter (m : Metadata) (row : GenericParameter) (ofMethod : Bool) : Resolving TypeId := do
  let name ← m.string row.nameIndex
  intern (.parameter row.number ofMethod name)

/-- The class around a type definition, if there is one; `resolve` gives the class of a
definition. -/
def declaringClass (m : Metadata) (resolve : Nat → Resolving ClassId) (row : TypeDefinition) :
    Resolving (Option ClassId) :=
  match row.declaringTypeIndex with
  | none => return none
  | some index => do
    let outer ← m.declaringDefinition (← m.descriptor index)
    some <$> resolve outer

/-- Creates the class of a type definition inside the class around it. -/
def create (m : Metadata) (definition : Nat) (row : TypeDefinition) (declaring : Option ClassId) :
    Resolving ClassId := do
  let name ← m.string row.nameIndex
  let outer := declaring >>= (← get).class?
  let namespaceName ← m.namespaceOf row (outer.map (·.namespaceName))
  let parameters ← m.parametersOf row
  let genericArgs ← parameters.mapM fun parameter => openParameter m parameter false
  insert
    { key := .ofDefinition definition
      image := m.imageOf definition
      namespaceName := namespaceName
      name := name
      qualifiedName := Name.qualified namespaceName (outer.map (·.qualifiedName)) name
      declaring := declaring
      genericArgs := genericArgs
      flags := row.attributes
      isValueType := row.isValueType
      isEnum := row.isEnum
      token := row.token
      depth := 0
      members := none }

/-- The class of a type definition, following at most `links` declaring types. -/
def definitionWithin (m : Metadata) : Nat → Nat → Resolving ClassId
  | 0, definition => do
    match (← get).find? (.ofDefinition definition) with
    | some id => return id
    | none => throw (.unresolved (.declaringChain definition declaringLimit))
  | links + 1, definition => do
    match (← get).find? (.ofDefinition definition) with
    | some id => return id
    | none =>
      let row ← m.typeDefinition definition
      let declaring ← declaringClass m (definitionWithin m links) row
      create m definition row declaring

/-- **Definitions.** The class of a type definition, which is created on first request. -/
def definition (m : Metadata) (index : Nat) : Resolving ClassId :=
  definitionWithin m (declaringLimit + 1) index

/-- **Classes.** The class for a key, which is created on first request. An instantiation takes over
everything but its arguments and its depth from its definition. -/
def classOf (m : Metadata) (key : ClassKey) : Resolving ClassId := do
  if key.isInstantiation then
    match (← get).find? key with
    | some id => return id
    | none =>
      let base ← definition m key.definition
      let arena ← get
      match arena.class? base with
      | none => throw (.unresolved (.classOf base.index key.definition))
      | some c =>
        insert
          { c with
            key := key
            genericArgs := key.classArgs
            depth := arena.keyDepth key
            members := none }
  else definition m key.definition

end Resolving

end GlobalMetadata
