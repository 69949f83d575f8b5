import GlobalMetadata.Graph.Reference
import GlobalMetadata.Graph.Rendering

/-!
# Completing classes

The members of a class are the runs that its definition names in the tables of fields, methods and
nested types, with the arguments of the class put in for its generic parameters. Fields are ordered
by name and methods by their written signature; what is equal stays in table order.

Members are published all at once. If one of them cannot be resolved the class keeps none.
-/

namespace GlobalMetadata.Resolving

/-- A field of a class. -/
def field (m : Metadata) (maxDepth : Nat) (scope : GenericScope) (owner : ClassId)
    (row : FieldDefinition) : Resolving ResolvedField := do
  let name ← m.string row.nameIndex
  let some index := row.typeIndex | throw (.unresolved (.fieldType name))
  let d ← m.descriptor index
  let type ← descriptor m maxDepth scope d
  return {
    name := name
    isStatic := d.isStatic
    type := type
    declaring := owner
    token := row.token }

/-- The fields of a class. -/
def fields (m : Metadata) (maxDepth : Nat) (scope : GenericScope) (owner : ClassId)
    (row : TypeDefinition) : Resolving (List ResolvedField) := do
  let rows ← Metadata.memberRows .field m.fields row.fieldStart row.fieldCount
  let fields ← rows.mapM (field m maxDepth scope owner)
  return fields.mergeSort fun a b => a.name ≤ b.name

/-- A parameter of a method. -/
def methodParameter (m : Metadata) (maxDepth : Nat) (scope : GenericScope)
    (row : ParameterDefinition) : Resolving ResolvedParameter := do
  let name ← m.string row.nameIndex
  let some index := row.typeIndex | throw (.unresolved (.parameterType name))
  let type ← typeIndex m maxDepth scope index
  return { name := name, type := type }

/-- The parameters of a method. -/
def parameters (m : Metadata) (maxDepth : Nat) (scope : GenericScope) (row : MethodDefinition) :
    Resolving (List ResolvedParameter) := do
  let rows ← Metadata.memberRows .parameter m.parameters row.parameterStart row.parameterCount
  rows.mapM (methodParameter m maxDepth scope)

/-- The result of a method, given by the index of its descriptor. -/
def returnType (m : Metadata) (maxDepth : Nat) (scope : GenericScope) :
    Option Nat → Resolving TypeId
  | some index => typeIndex m maxDepth scope index
  | none => intern .void

/-- The written signature of a method. -/
def signature (arena : Arena) (isStatic : Bool) (returnType : TypeId) (name : String)
    (parameters : List ResolvedParameter) : String :=
  Name.signature isStatic (arena.display returnType) name
    (parameters.map fun parameter => (arena.display parameter.type, parameter.name))

/-- The address of a method of a class. Instantiations share the code of their definition, so that
only methods of definitions have one. -/
def methodAddress (m : Metadata) (isInstantiation : Bool) (image : Option Nat)
    (row : MethodDefinition) : Option Nat :=
  if isInstantiation then none
  else do m.registration.methodAddress (← m.imageName (← image)) row

/-- A method of a class, not yet told apart from its overloads. -/
def method (m : Metadata) (maxDepth : Nat) (scope : GenericScope) (owner : ClassId)
    (c : ResolvedClass) (row : MethodDefinition) : Resolving ResolvedMethod := do
  let name ← m.string row.nameIndex
  let returnType ← returnType m maxDepth scope row.returnType
  let parameters ← parameters m maxDepth scope row
  return {
    name := name
    uniqueId := ""
    signature := signature (← get) row.isStatic returnType name parameters
    isStatic := row.isStatic
    returnType := returnType
    parameters := parameters
    declaring := owner
    token := row.token
    address := methodAddress m c.isInstantiation c.image row }

/-- The methods in the given order, told apart. -/
def identify (methods : List ResolvedMethod) : List ResolvedMethod :=
  let ids := Name.uniqueIds (methods.map fun method => (method.name, method.parameters.length))
  List.zipWith (fun method id => { method with uniqueId := id }) methods ids

/-- The methods of a class. -/
def methods (m : Metadata) (maxDepth : Nat) (scope : GenericScope) (owner : ClassId)
    (c : ResolvedClass) (row : TypeDefinition) : Resolving (List ResolvedMethod) := do
  let rows ← Metadata.memberRows .method m.methods row.methodStart row.methodCount
  let methods ← rows.mapM (method m maxDepth scope owner c)
  return identify (methods.mergeSort fun a b => a.signature ≤ b.signature)

/-- An entry among the nested types of a definition, which has to be declared by the definition
itself. -/
def nestedClass (m : Metadata) (owner : ClassId) (index : Nat) (entry : Int) :
    Resolving ClassId := do
  let some position := toIndex? entry | throw (.unresolved (.nestedIndex index entry))
  let id ← definition m position
  if ((← get).class? id >>= (·.declaring)) = some owner then
    return id
  else
    throw (.unresolved (.nestedOwner index position))

/-- The nested classes of a class; an instantiation has none. -/
def nested (m : Metadata) (owner : ClassId) (c : ResolvedClass) (row : TypeDefinition) :
    Resolving (List ClassId) := do
  if c.isInstantiation then
    return []
  let rows ←
    Metadata.memberRows .nestedType m.nestedTypes row.nestedTypesStart row.nestedTypeCount
  rows.mapM (nestedClass m owner c.definition)

/-- The underlying type of an enumeration that has one. -/
def underlying (m : Metadata) (maxDepth : Nat) (scope : GenericScope) (c : ResolvedClass)
    (row : TypeDefinition) : Resolving (Option TypeId) :=
  match row.elementTypeIndex with
  | some index => if c.isEnum then some <$> typeIndex m maxDepth scope index else pure none
  | none => pure none

/-- The members of a class. -/
def members (m : Metadata) (maxDepth : Nat) (id : ClassId) (c : ResolvedClass) :
    Resolving Members := do
  let row ← m.typeDefinition c.definition
  let scope := GenericScope.ofKey c.key
  let underlying ← underlying m maxDepth scope c row
  let fields ← fields m maxDepth scope id row
  let methods ← methods m maxDepth scope id c row
  let nested ← nested m id c row
  return ⟨underlying, nested, fields, methods⟩

/-- **Completion.** Resolves the members of a class and publishes them. -/
def complete (m : Metadata) (maxDepth : Nat) (id : ClassId) : Resolving Unit := do
  match (← get).class? id with
  | none => throw (.unresolved (.classId id.index))
  | some c =>
    let members ← members m maxDepth id c
    modify (·.publish id members)

end GlobalMetadata.Resolving
