import GlobalMetadata.Document
import GlobalMetadata.Row.Generic
import GlobalMetadata.Row.Image
import GlobalMetadata.Row.Member
import GlobalMetadata.Row.TypeDefinition
import GlobalMetadata.Row.Value

/-!
# Documents of rows

Each row is an object with a member per field. What only some versions have is null in the others.
-/

namespace GlobalMetadata

open Document

/-! ### Managed modules and assemblies -/

instance : Documented ImageDefinition where
  document row := .object
    [("name_index", .of row.nameIndex), ("assembly_index", .of row.assemblyIndex),
      ("type_start", .of row.typeStart), ("type_count", .of row.typeCount),
      ("exported_type_start", .of row.exportedTypeStart),
      ("exported_type_count", .of row.exportedTypeCount),
      ("entry_point_index", .of row.entryPointIndex), ("token", .of row.token),
      ("custom_attribute_start", .of row.customAttributeStart),
      ("custom_attribute_count", .of row.customAttributeCount)]

instance : Documented AssemblyName where
  document name := .object
    [("name_index", .of name.nameIndex), ("culture_index", .of name.cultureIndex),
      ("hash_value_index", .of name.hashValueIndex),
      ("public_key_index", .of name.publicKeyIndex), ("hash_alg", .of name.hashAlgorithm),
      ("hash_len", .of name.hashLength), ("flags", .of name.flags), ("major", .of name.major),
      ("minor", .of name.minor), ("build", .of name.build), ("revision", .of name.revision),
      ("public_key_token", .bytes name.publicKeyToken)]

instance : Documented AssemblyDefinition where
  document row := .object
    [("image_index", .of row.imageIndex), ("token", .of row.token),
      ("custom_attribute_index", .of row.customAttributeIndex),
      ("referenced_assembly_start", .of row.referencedAssemblyStart),
      ("referenced_assembly_count", .of row.referencedAssemblyCount), ("name", .of row.name)]

/-! ### Types and their members -/

instance : Documented TypeDefinition where
  document row := .object
    [("name_index", .of row.nameIndex), ("namespace_index", .of row.namespaceIndex),
      ("byval_type_index", .of row.byvalTypeIndex),
      ("byref_type_index", .of row.byrefTypeIndex),
      ("declaring_type_index", .of row.declaringTypeIndex),
      ("parent_index", .of row.parentIndex), ("element_type_index", .of row.elementTypeIndex),
      ("generic_container_index", .of row.genericContainerIndex), ("flags", .of row.flags),
      ("field_start", .of row.fieldStart), ("method_start", .of row.methodStart),
      ("event_start", .of row.eventStart), ("property_start", .of row.propertyStart),
      ("nested_types_start", .of row.nestedTypesStart),
      ("interfaces_start", .of row.interfacesStart), ("vtable_start", .of row.vtableStart),
      ("interface_offsets_start", .of row.interfaceOffsetsStart),
      ("method_count", .of row.methodCount), ("property_count", .of row.propertyCount),
      ("field_count", .of row.fieldCount), ("event_count", .of row.eventCount),
      ("nested_type_count", .of row.nestedTypeCount), ("vtable_count", .of row.vtableCount),
      ("interfaces_count", .of row.interfacesCount),
      ("interface_offsets_count", .of row.interfaceOffsetsCount),
      ("bitfield", .of row.bitfield), ("token", .of row.token),
      ("is_valuetype", .of row.isValueType), ("is_enum", .of row.isEnum),
      ("is_interface", .of row.isInterface), ("attributes", .of row.attributes)]

instance : Documented MethodDefinition where
  document row := .object
    [("name_index", .of row.nameIndex), ("declaring_type", .of row.declaringType),
      ("return_type", .of row.returnType),
      ("return_parameter_token", .of row.returnParameterToken),
      ("parameter_start", .of row.parameterStart),
      ("generic_container_index", .of row.genericContainerIndex),
      ("method_index", .of row.methodIndex), ("invoker_index", .of row.invokerIndex),
      ("token", .of row.token), ("flags", .of row.flags), ("iflags", .of row.iflags),
      ("slot", .of row.slot), ("parameter_count", .of row.parameterCount),
      ("is_static", .of row.isStatic), ("attributes", .of row.attributes)]

instance : Documented ParameterDefinition where
  document row := .object
    [("name_index", .of row.nameIndex), ("token", .of row.token), ("type_index", .of row.typeIndex)]

instance : Documented FieldDefinition where
  document row := .object
    [("name_index", .of row.nameIndex), ("type_index", .of row.typeIndex), ("token", .of row.token)]

instance : Documented PropertyDefinition where
  document row := .object
    [("name_index", .of row.nameIndex), ("get", .of row.getter), ("set", .of row.setter),
      ("attrs", .of row.attributes), ("token", .of row.token)]

instance : Documented EventDefinition where
  document row := .object
    [("name_index", .of row.nameIndex), ("type_index", .of row.typeIndex), ("add", .of row.adder),
      ("remove", .of row.remover), ("raise", .of row.raiser), ("token", .of row.token)]

instance : Documented GenericContainer where
  document row := .object
    [("owner_index", .of row.ownerIndex), ("type_argc", .of row.parameterCount),
      ("is_method", .of row.isMethod), ("generic_parameter_start", .of row.parameterStart)]

instance : Documented GenericParameter where
  document row := .object
    [("owner_index", .of row.ownerIndex), ("name_index", .of row.nameIndex),
      ("constraints_start", .of row.constraintsStart),
      ("constraints_count", .of row.constraintsCount), ("num", .of row.number),
      ("flags", .of row.flags)]

/-! ### Values and attributes -/

instance : Documented FieldDefaultValue where
  document row := .object
    [("field_index", .of row.fieldIndex), ("type_index", .of row.typeIndex),
      ("data_index", .of row.dataIndex)]

instance : Documented ParameterDefaultValue where
  document row := .object
    [("parameter_index", .of row.parameterIndex), ("type_index", .of row.typeIndex),
      ("data_index", .of row.dataIndex)]

instance : Documented FieldMarshaledSize where
  document row := .object
    [("field_index", .of row.fieldIndex), ("type_index", .of row.typeIndex), ("size", .of row.size)]

instance : Documented CustomAttributeTypeRange where
  document row := .object
    [("token", .of row.token), ("start", .of row.start), ("count", .of row.count)]

instance : Documented CustomAttributeDataRange where
  document row := .object [("token", .of row.token), ("start_offset", .of row.startOffset)]

instance : Documented FieldRef where
  document row := .object [("type_index", .of row.typeIndex), ("field_index", .of row.fieldIndex)]

instance : Documented StringLiteral where
  document row := .object [("length", .of row.length), ("data_index", .of row.dataIndex)]

end GlobalMetadata
