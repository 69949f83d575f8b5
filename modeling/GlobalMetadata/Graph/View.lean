import GlobalMetadata.Graph

/-!
# The rendered view

For whoever writes the graph out: trees in which every name is already spelled. A module holds its
top-level types, and a type the resolved types nested in it.

The table of nested types is not to be trusted: a type may be listed twice or inside itself. Within
one tree every class is rendered once, where it is met first. The underlying types of enumerations
are not to be trusted either, but nothing guards against an enumeration that is stored like itself:
there is no view of a graph that would show one.
-/

namespace GlobalMetadata

/-- A rendered field. -/
structure FieldInfo where
  name : String
  /-- The display of the type. -/
  displayName : String
  /-- The native spelling of the type. -/
  nativeName : String
  /-- Whether the field belongs to the class and not to its instances. -/
  isStatic : Bool
  deriving DecidableEq, Repr

/-- A rendered parameter. -/
structure ParameterInfo where
  name : String
  /-- The display of the type. -/
  displayName : String
  /-- The native spelling of the type. -/
  nativeName : String
  deriving DecidableEq, Repr

/-- A rendered method. -/
structure MethodInfo where
  name : String
  /-- The identifier among the methods of the class. -/
  uniqueId : String
  signature : String
  /-- Whether the method has no receiver. -/
  isStatic : Bool
  /-- Whether the method has no result. -/
  isVoid : Bool
  /-- The display of the result's type. -/
  displayName : String
  /-- The native spelling of the result's type. -/
  nativeName : String
  /-- The parameters, in order. -/
  parameters : List ParameterInfo
  /-- The address of the compiled code. -/
  address : Option Nat
  deriving DecidableEq, Repr

/-- A rendered class, without the types nested in it. -/
structure ClassInfo where
  id : ClassId
  /-- The namespace of the outermost declaring type. -/
  namespaceName : String
  name : String
  /-- The path of identifiers from the namespace to the name. -/
  qualifiedName : String
  /-- The display of the class, without its namespace. -/
  displayName : String
  /-- The native spelling of a value of the class. -/
  nativeName : String
  isValueType : Bool
  isEnum : Bool
  isInterface : Bool
  /-- The fields, by name. -/
  fields : List FieldInfo
  /-- The methods, by signature. -/
  methods : List MethodInfo
  deriving DecidableEq, Repr

/-- A rendered class with the resolved types nested in it. -/
structure TypeTree where
  info : ClassInfo
  nested : List TypeTree

/-- A rendered module. -/
structure ImageInfo where
  /-- The name of the module. -/
  name : String
  /-- The resolved top-level types. -/
  types : List TypeTree

/-! ### Searching a view -/

namespace ClassInfo

/-- The first field with a given name. -/
def field? (info : ClassInfo) (name : String) : Option FieldInfo :=
  info.fields.find? (·.name = name)

/-- The first method with a given identifier. -/
def method? (info : ClassInfo) (uniqueId : String) : Option MethodInfo :=
  info.methods.find? (·.uniqueId = uniqueId)

end ClassInfo

namespace TypeTree

mutual

/-- The first type with a given path: the type itself, or one nested in it. -/
def find? (qualifiedName : String) : TypeTree → Option TypeTree
  | ⟨info, nested⟩ =>
    if info.qualifiedName = qualifiedName then some ⟨info, nested⟩
    else findIn? qualifiedName nested

/-- The first type with a given path among some types and those nested in them. -/
def findIn? (qualifiedName : String) : List TypeTree → Option TypeTree
  | [] => none
  | tree :: rest => find? qualifiedName tree <|> findIn? qualifiedName rest

end

end TypeTree

/-- The first type of a module with a given path, at any level. -/
def ImageInfo.find? (image : ImageInfo) (qualifiedName : String) : Option TypeTree :=
  TypeTree.findIn? qualifiedName image.types

/-! ### Rendering

Rendering a class spells it and the types of its members natively, which comes to no end if one of
them is stored like itself. With a bound on the references that a native spelling follows, nothing
comes out where the bound is not enough. -/

namespace TypeGraph

section Within

variable (graph : TypeGraph) (fuel : Nat)

/-- A field, rendered within a bound. -/
def fieldInfoWithin (field : ResolvedField) : Option FieldInfo := do
  let nativeName ← graph.arena.nativeWithin fuel field.type
  return {
    name := field.name
    displayName := graph.arena.display field.type
    nativeName := nativeName
    isStatic := field.isStatic }

/-- A parameter, rendered within a bound. -/
def parameterInfoWithin (parameter : ResolvedParameter) : Option ParameterInfo := do
  let nativeName ← graph.arena.nativeWithin fuel parameter.type
  return {
    name := parameter.name
    displayName := graph.arena.display parameter.type
    nativeName := nativeName }

/-- A method, rendered within a bound. -/
def methodInfoWithin (method : ResolvedMethod) : Option MethodInfo := do
  let nativeName ← graph.arena.nativeWithin fuel method.returnType
  let parameters ← method.parameters.mapM (graph.parameterInfoWithin fuel)
  return {
    name := method.name
    uniqueId := method.uniqueId
    signature := method.signature
    isStatic := method.isStatic
    isVoid := graph.type? method.returnType = some .void
    displayName := graph.arena.display method.returnType
    nativeName := nativeName
    parameters := parameters
    address := method.address }

/-- A class, rendered within a bound. -/
def classInfoWithin (id : ClassId) (c : ResolvedClass) : Option ClassInfo := do
  let nativeName ← graph.arena.classNativeWithin fuel id
  let fields ← c.fields.mapM (graph.fieldInfoWithin fuel)
  let methods ← c.methods.mapM (graph.methodInfoWithin fuel)
  return {
    id := id
    namespaceName := c.namespaceName
    name := c.name
    qualifiedName := c.qualifiedName
    displayName := graph.arena.classDisplay id
    nativeName := nativeName
    isValueType := c.isValueType
    isEnum := c.isEnum
    isInterface := c.isInterface
    fields := fields
    methods := methods }

/-- A class with its nested types, at most `levels` levels deep, rendered within a bound. The state
holds the classes rendered so far; one of them is not rendered again. -/
def treeWithin : Nat → ClassId → StateT (List ClassId) Option (Option TypeTree)
  | 0, _ => pure none
  | levels + 1, id => do
    let some c := graph.class? id | return none
    let visited ← get
    if !c.isResolved || visited.contains id then
      return none
    set (id :: visited)
    let info ← graph.classInfoWithin fuel id c
    let nested ← c.nested.mapM (treeWithin levels)
    return some ⟨info, nested.filterMap fun tree => tree⟩

/-- A resolved class with its nested types, rendered within a bound. Every level renders another
class, so that there are no more levels than classes. -/
def typeInfoWithin (id : ClassId) : Option (Option TypeTree) :=
  (graph.treeWithin fuel (graph.arena.classes.size + 1) id).run' []

/-- Every module with its resolved top-level types, rendered within a bound. -/
def viewWithin : Option (List ImageInfo) :=
  graph.images.mapM fun image => do
    let types ← image.types.mapM (graph.typeInfoWithin fuel)
    return ⟨image.name, types.filterMap fun tree => tree⟩

end Within

/-- A class with its nested types, unless it is not resolved; and nothing at all if rendering it
comes to no end. -/
def typeInfo (graph : TypeGraph) (id : ClassId) : Option (Option TypeTree) :=
  graph.typeInfoWithin graph.arena.spellingBound id

/-- **The view.** Every module with its resolved top-level types, if rendering them comes to an
end. -/
def view? (graph : TypeGraph) : Option (List ImageInfo) :=
  graph.viewWithin graph.arena.spellingBound

end TypeGraph

end GlobalMetadata
