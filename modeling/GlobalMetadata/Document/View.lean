import GlobalMetadata.Document.Graph
import GlobalMetadata.Graph.View

/-!
# Documents of the rendered view

The ids of classes depend on the order in which they were created. A reader that must not depend on
it asks for a document without them.
-/

namespace GlobalMetadata

open Document

instance : Documented FieldInfo where
  document field := .object
    [("name", .of field.name), ("display_name", .of field.displayName),
      ("native_name", .of field.nativeName), ("is_static", .of field.isStatic)]

instance : Documented ParameterInfo where
  document parameter := .of [parameter.name, parameter.displayName, parameter.nativeName]

instance : Documented MethodInfo where
  document method := .object
    [("name", .of method.name), ("unique_id", .of method.uniqueId),
      ("signature", .of method.signature), ("is_static", .of method.isStatic),
      ("is_void", .of method.isVoid), ("display_name", .of method.displayName),
      ("native_name", .of method.nativeName), ("parameters", .of method.parameters),
      ("address", .of (method.address.map hex))]

/-- The members of a rendered class apart from its id and the types nested in it. -/
def ClassInfo.documentMembers (info : ClassInfo) : List (String × Document) :=
  [("namespace", .of info.namespaceName), ("name", .of info.name),
    ("qualified_name", .of info.qualifiedName), ("display_name", .of info.displayName),
    ("native_name", .of info.nativeName), ("is_valuetype", .of info.isValueType),
    ("is_enum", .of info.isEnum), ("is_interface", .of info.isInterface),
    ("fields", .of info.fields), ("methods", .of info.methods)]

mutual

/-- A rendered class with the types nested in it, with or without ids. -/
def TypeTree.document (withIds : Bool) : TypeTree → Document
  | ⟨info, nested⟩ =>
    let id := if withIds then [("id", Document.of info.id)] else []
    .object (id ++ info.documentMembers ++ [("nested", .list (TypeTree.documents withIds nested))])

/-- Rendered classes in order. -/
def TypeTree.documents (withIds : Bool) : List TypeTree → List Document
  | [] => []
  | tree :: rest => TypeTree.document withIds tree :: TypeTree.documents withIds rest

end

/-! ### What there is to write

A rendering that comes to no end leaves nothing to write down. -/

/-- The tree to be written for a class, if there is one. -/
def TypeGraph.tree? (graph : TypeGraph) (id : ClassId) : Option TypeTree :=
  (graph.typeInfo id).join

/-- The modules to be written for a graph. -/
def TypeGraph.view (graph : TypeGraph) : List ImageInfo :=
  graph.view?.getD []

/-- A rendered module, with or without the ids of its classes. -/
def ImageInfo.document (withIds : Bool) (image : ImageInfo) : Document :=
  .object [("name", .of image.name), ("types", .list (TypeTree.documents withIds image.types))]

end GlobalMetadata
