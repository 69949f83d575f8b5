import GlobalMetadata.Document.Layout
import GlobalMetadata.Registration

/-!
# Documents of the registration tables

Counts, addresses and whatever else is as wide as a pointer are written as hexadecimal texts,
indices as numbers.
-/

namespace GlobalMetadata

open Document

/-! ### Type descriptors -/

instance : Documented TypeKind where
  document kind := .text kind.name

instance : Documented Payload where
  document
    | .none => .object [("kind", .text "None")]
    | .definition index => .object [("kind", .text "ClassIndex"), ("index", .of index)]
    | .element address => .object [("kind", .text "ElementType"), ("address", .hex address)]
    | .array address => .object [("kind", .text "ArrayType"), ("address", .hex address)]
    | .parameter index => .object [("kind", .text "GenericParameterIndex"), ("index", .of index)]
    | .instantiation address => .object [("kind", .text "GenericClass"), ("address", .hex address)]

instance : Documented Descriptor where
  document d := .object
    [("attrs", .of d.attributes), ("kind", .of d.kind), ("num_mods", .of d.modifiers),
      ("byref", .of d.byref), ("pinned", .of d.pinned), ("payload", .of d.payload),
      ("is_static", .of d.isStatic), ("is_primitive", .of d.kind.isPrimitive)]

/-! ### Entries -/

instance : Documented NativeArray where
  document array := .list [.hex array.count, .hex array.address]

instance : Documented GenericDefinition where
  document
    | .row index => .object [("index", .of index)]
    | .type address => .object [("type", .hex address)]

instance : Documented GenericClass where
  document c := .object
    [("definition", .of c.definition), ("class_inst", .hex c.classInst),
      ("method_inst", .hex c.methodInst), ("cached_class", .hex c.cachedClass)]

instance : Documented GenericInst where
  document inst := .object [("type_argc", .hex inst.count), ("type_argv", .hex inst.address)]

instance : Documented ArrayShape where
  document shape := .object
    [("etype", .hex shape.element), ("rank", .of shape.rank), ("numsizes", .of shape.sizeCount),
      ("numlobounds", .of shape.lowerBoundCount), ("sizes", .hex shape.sizes),
      ("lobounds", .hex shape.lowerBounds)]

instance : Documented MethodSpec where
  document spec := .of [spec.method, spec.classArguments, spec.methodArguments]

instance : Documented GenericMethod where
  document entry := .list
    [.of entry.spec, .of entry.method, .of entry.invoker, .of entry.adjustorThunk]

instance : Documented CodeModule where
  document module := .object
    [("name", .of module.name), ("method_pointers", .of (module.methodPointers.map hex)),
      ("adjustor_thunk_count", .of (module.adjustorThunkCount.map hex)),
      ("invoker_indices", .hex module.invokerIndices),
      ("reverse_pinvoke_wrapper_count", .hex module.reverseWrapperCount),
      ("rgctx_ranges_count", .hex module.rgctxRangeCount),
      ("rgctxs_count", .hex module.rgctxCount),
      ("module_initializer", .of (module.moduleInitializer.map hex))]

/-! ### Tables -/

instance : Documented CodeRegistration where
  document root := .object
    [("method_pointers", .of root.methodPointers),
      ("generic_method_pointers", .of root.genericMethodPointers),
      ("invoker_pointers", .of root.invokerPointers),
      ("code_gen_modules", .of root.codeGenModules)]

instance : Documented MetadataRegistration where
  document root := .object
    [("generic_classes", .of root.genericClasses), ("generic_insts", .of root.genericInsts),
      ("generic_method_table", .of root.genericMethodTable), ("types", .of root.types),
      ("method_specs", .of root.methodSpecs), ("field_offsets", .of root.fieldOffsets),
      ("type_definitions_sizes", .of root.typeDefinitionsSizes),
      ("metadata_usages", .of root.metadataUsages)]

instance : Documented Registration where
  document tables := .object
    [("version", .of tables.pair), ("code_registration", .of tables.code),
      ("metadata_registration", .of tables.metadata), ("types", .of tables.types),
      ("type_addresses", .of (tables.typeAddresses.map hex)),
      ("generic_classes", .of (tables.genericClasses.map hex)),
      ("generic_insts", .of tables.genericInsts), ("method_specs", .of tables.methodSpecs),
      ("generic_method_table", .of tables.genericMethods),
      ("code_gen_modules", .of tables.modules)]

end GlobalMetadata
