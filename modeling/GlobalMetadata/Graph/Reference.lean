import GlobalMetadata.Graph.Creation

/-!
# Resolving type references

A member refers to its type by a descriptor. Resolution follows the descriptor through the image and
interns what it finds. Generic parameters are replaced by the arguments in scope, as far as there
are any; an instantiation becomes a class of its own, with two exceptions:

* an instantiation with exactly the definition's own open parameters *is* the definition;
* an instantiation that nests more deeply than the configuration allows is replaced by the
  definition, and counted.

Descriptors refer to each other at most `nestingLimit` deep, so that one that contains itself is
refused.
-/

namespace GlobalMetadata

/-- The generic arguments in scope. -/
structure GenericScope where
  /-- The arguments of the parameters of a type. -/
  classArgs : List TypeId
  /-- The arguments of the parameters of a method. -/
  methodArgs : List TypeId
  deriving DecidableEq, Repr

namespace GenericScope

/-- The scope without arguments, in which every parameter is open. -/
def empty : GenericScope :=
  ⟨[], []⟩

/-- The arguments that the members of a class see. -/
def ofKey (key : ClassKey) : GenericScope :=
  ⟨key.classArgs, key.methodArgs⟩

/-- The arguments of the parameters of methods or of types. -/
def args (scope : GenericScope) (ofMethod : Bool) : List TypeId :=
  if ofMethod then scope.methodArgs else scope.classArgs

end GenericScope

/-- Where a type to resolve comes from. -/
inductive TypeSource
  /-- The descriptor with an index. -/
  | index (position : Nat)
  /-- The descriptor at an address. -/
  | address (va : Nat)
  /-- The class of a type definition. -/
  | definition (row : Nat)
  deriving DecidableEq, Repr

/-- The deepest nesting of descriptors that is followed. -/
def nestingLimit : Nat :=
  64

namespace Resolving

/-- The argument for a generic parameter, or the parameter itself when it is open. -/
def parameter (m : Metadata) (scope : GenericScope) (index : Nat) (ofMethod : Bool) :
    Resolving TypeId := do
  let row ← m.genericParameter index
  match (scope.args ofMethod)[row.number]? with
  | some arg => return arg
  | none => openParameter m row ofMethod

/-- The types of the arguments in the list at an address, 0 for no list; `resolve` is the resolution
of the descriptor at an address. -/
def arguments (m : Metadata) (resolve : Nat → Resolving TypeId) (address : Nat) :
    Resolving (List TypeId) := do
  if address = 0 then
    return []
  let inst ← m.registration.genericInstAt address
  let addresses ← inst.arguments m.registration.image
  addresses.mapM resolve

/-- The type of an instantiation with a given key: the definition itself when the arguments are its
own parameters, the definition in its place when the nesting is too deep, or a class of its own. -/
def instantiate (m : Metadata) (maxDepth : Nat) (key : ClassKey) : Resolving TypeId := do
  let base ← definition m key.definition
  let arena ← get
  let isOpen :=
    key.methodArgs.isEmpty && (arena.class? base).any (·.genericArgs = key.classArgs)
  if isOpen then
    classType base
  else if maxDepth < arena.keyDepth key then
    modify (·.truncate)
    classType base
  else
    classType (← classOf m key)

/-- The type of the instantiation at an address. -/
def instantiation (m : Metadata) (maxDepth : Nat) (resolve : Nat → Resolving TypeId)
    (address : Nat) : Resolving TypeId := do
  let generic ← m.registration.genericClassAt address
  let row ← m.instantiatedDefinition generic
  let classArgs ← arguments m resolve generic.classInst
  let methodArgs ← arguments m resolve generic.methodInst
  instantiate m maxDepth ⟨row, classArgs, methodArgs⟩

/-- What a descriptor stands for, before its by-reference flag is looked at. -/
def payload (m : Metadata) (maxDepth : Nat) (scope : GenericScope)
    (resolve : Nat → Resolving TypeId) (descriptor : Descriptor) : Resolving TypeId := do
  if descriptor.kind = .void then
    intern .void
  else
    match descriptor.payload with
    | .none => intern (.primitive descriptor.kind)
    | .definition row => classType (← definition m row)
    | .element address =>
      let element ← resolve address
      match descriptor.kind with
      | .ptr => intern (.pointer element)
      | .byRef => intern (.byref element)
      | _ => intern (.array element 1)
    | .array address =>
      let shape ← m.registration.arrayTypeAt address
      let element ← resolve shape.element
      intern (.array element (max shape.rank 1))
    | .parameter index => parameter m scope index (descriptor.kind = .mVar)
    | .instantiation address => instantiation m maxDepth resolve address

/-- The type of the descriptor at an address; `resolve` is the resolution of a descriptor. -/
def atAddress (m : Metadata) (resolve : Descriptor → Resolving TypeId) (address : Nat) :
    Resolving TypeId := do
  resolve (← m.registration.typeAt address)

/-- The type of a descriptor, following at most `levels` descriptors into each other. -/
def descriptorWithin (m : Metadata) (maxDepth : Nat) (scope : GenericScope) :
    Nat → Descriptor → Resolving TypeId
  | 0, descriptor => throw (.unresolved (.descriptorNesting descriptor.kind nestingLimit))
  | levels + 1, descriptor => do
    let resolve := atAddress m (descriptorWithin m maxDepth scope levels)
    let type ← payload m maxDepth scope resolve descriptor
    if descriptor.byref && descriptor.kind != .byRef then
      intern (.byref type)
    else
      return type

/-- **Descriptors.** The type that a descriptor stands for in a scope. -/
def descriptor (m : Metadata) (maxDepth : Nat) (scope : GenericScope) (d : Descriptor) :
    Resolving TypeId :=
  descriptorWithin m maxDepth scope (nestingLimit + 1) d

/-- The type of the descriptor with an index. -/
def typeIndex (m : Metadata) (maxDepth : Nat) (scope : GenericScope) (index : Nat) :
    Resolving TypeId := do
  descriptor m maxDepth scope (← m.descriptor index)

/-- **Types.** The type that a source names, in a scope. -/
def type (m : Metadata) (maxDepth : Nat) (scope : GenericScope) : TypeSource → Resolving TypeId
  | .index position => typeIndex m maxDepth scope position
  | .address va => do descriptor m maxDepth scope (← m.registration.typeAt va)
  | .definition row => do classType (← definition m row)

/-- The type of an instantiation that the registration tables list. -/
def listed (m : Metadata) (maxDepth : Nat) (address : Nat) : Resolving TypeId :=
  instantiation m maxDepth (atAddress m (descriptorWithin m maxDepth .empty nestingLimit)) address

end Resolving

end GlobalMetadata
