import GlobalMetadata.Document.Registration
import GlobalMetadata.Graph

/-!
# Documents of the type graph

Types and classes refer to each other by id. A class is written with its spellings, so that its
document needs the arena that it stands in.
-/

namespace GlobalMetadata

open Document

/-! ### Types -/

instance : Documented TypeId where
  document id := .of id.index

instance : Documented ClassId where
  document id := .of id.index

instance : Documented ResolvedType where
  document
    | .void => .object [("kind", .text "void")]
    | .primitive kind => .object [("kind", .text "primitive"), ("primitive", .of kind)]
    | .class id => .object [("kind", .text "class"), ("class", .of id)]
    | .array element rank =>
      .object [("kind", .text "array"), ("element", .of element), ("rank", .of rank)]
    | .pointer element => .object [("kind", .text "pointer"), ("element", .of element)]
    | .byref element => .object [("kind", .text "byref"), ("element", .of element)]
    | .parameter position ofMethod name =>
      .object [("kind", .text "generic_parameter"), ("index", .of position),
        ("method_level", .of ofMethod), ("name", .of name)]

/-- A type with both of its spellings. -/
def Arena.typeDocument (arena : Arena) (id : TypeId) : Document :=
  .list [.of (arena.type? id), .of (arena.display id), .of (arena.native id)]

/-! ### Classes -/

instance : Documented ResolvedField where
  document field := .object
    [("name", .of field.name), ("is_static", .of field.isStatic), ("type", .of field.type),
      ("declaring", .of field.declaring), ("token", .of field.token)]

instance : Documented ResolvedParameter where
  document parameter := .list [.of parameter.name, .of parameter.type]

instance : Documented ResolvedMethod where
  document method := .object
    [("name", .of method.name), ("unique_id", .of method.uniqueId),
      ("signature", .of method.signature), ("is_static", .of method.isStatic),
      ("return_type", .of method.returnType), ("parameters", .of method.parameters),
      ("declaring", .of method.declaring), ("token", .of method.token),
      ("address", .of (method.address.map hex))]

/-- The three spellings of a class: without and with its namespace, and in native code. -/
def Arena.spellings (arena : Arena) (id : ClassId) : List (Option String) :=
  [some (arena.classDisplay id), some (arena.classFullDisplay id), arena.classNative id]

/-- A class with its spellings. -/
def Arena.classDocument (arena : Arena) (id : ClassId) (c : ResolvedClass) : Document :=
  .object
    [("id", .of id), ("definition", .of c.definition), ("class_args", .of c.key.classArgs),
      ("method_args", .of c.key.methodArgs), ("is_instantiation", .of c.isInstantiation),
      ("image", .of c.image), ("namespace", .of c.namespaceName), ("name", .of c.name),
      ("qualified_name", .of c.qualifiedName), ("declaring", .of c.declaring),
      ("generic_args", .of c.genericArgs), ("flags", .of c.flags),
      ("is_valuetype", .of c.isValueType), ("is_enum", .of c.isEnum),
      ("is_interface", .of c.isInterface), ("token", .of c.token), ("depth", .of c.depth),
      ("is_resolved", .of c.isResolved), ("underlying", .of c.underlying),
      ("nested", .of c.nested), ("fields", .of c.fields), ("methods", .of c.methods),
      ("display", .of (arena.classDisplay id)), ("full_display", .of (arena.classFullDisplay id)),
      ("native", .of (arena.classNative id))]

/-! ### The graph -/

/-- Every class and every type of the graph. -/
def TypeGraph.documentMembers (graph : TypeGraph) : List (String × Document) :=
  let arena := graph.arena
  [("classes", .of (arena.classes.toList.zipIdx.map fun (c, index) =>
      arena.classDocument ⟨index⟩ c)),
    ("resolved", .of (graph.classes.map (·.1))),
    ("types", .of ((List.range arena.types.size).map fun index => arena.typeDocument ⟨index⟩))]

end GlobalMetadata
