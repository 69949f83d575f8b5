import GlobalMetadata.Document.Registration
import GlobalMetadata.Document.Row
import GlobalMetadata.Metadata

/-!
# Documents of decoded metadata

One object with a member per table. The string literals are written as texts; one that is no text
has its error in its place.
-/

namespace GlobalMetadata

open Document

instance : Documented Header where
  document header := .object [("version", .of header.version), ("record", .of header.record)]

/-- The members of the document of decoded metadata. -/
def Metadata.documentMembers (m : Metadata) : List (String × Document) :=
  [("pair", .of m.pair), ("header", .of m.header), ("strings_len", .of m.strings.data.size),
    ("string_literals", .of ((List.range m.literals.rows.size).map m.literals.get)),
    ("images", .of m.images), ("assemblies", .of m.assemblies),
    ("type_definitions", .of m.typeDefinitions), ("methods", .of m.methods),
    ("parameters", .of m.parameters), ("fields", .of m.fields), ("properties", .of m.properties),
    ("events", .of m.events), ("generic_containers", .of m.genericContainers),
    ("generic_parameters", .of m.genericParameters),
    ("generic_parameter_constraints", .of m.genericParameterConstraints),
    ("nested_types", .of m.nestedTypes), ("interfaces", .of m.interfaces),
    ("vtable_methods", .of m.vtableMethods), ("field_default_values", .of m.fieldDefaultValues),
    ("parameter_default_values", .of m.parameterDefaultValues),
    ("default_value_data", .blob m.defaultValueData),
    ("field_marshaled_sizes", .of m.fieldMarshaledSizes),
    ("attribute_type_ranges", .of m.attributeTypeRanges), ("attribute_types", .of m.attributeTypes),
    ("attribute_data_ranges", .of m.attributeDataRanges),
    ("attribute_data", .blob m.attributeData), ("field_refs", .of m.fieldRefs),
    ("referenced_assemblies", .of m.referencedAssemblies),
    ("exported_type_definitions", .of m.exportedTypeDefinitions),
    ("registration", .of m.registration)]

instance : Documented Metadata where
  document m := .object m.documentMembers

end GlobalMetadata
