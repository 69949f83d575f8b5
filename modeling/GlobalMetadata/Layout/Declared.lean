import GlobalMetadata.Layout.Blob
import GlobalMetadata.Layout.Native

/-!
# The declaration of each kind of structure

`Layout.of` finds the declared fields of a kind and the axis that they follow: the metadata axis for
structures of the blob, the registration axis for those of the native image.
-/

namespace GlobalMetadata

namespace RecordKind

/-- The axis on which the structures of a kind are versioned. -/
def axis : RecordKind → Axis
  | .codeRegistration | .metadataRegistration | .typeDescriptor | .genericClass | .genericContext
    | .genericInst | .arrayType | .methodSpec | .genericMethodFunctions
    | .codeGenModule => .registration
  | _ => .metadata

/-- The declared fields of a kind. -/
def fields : RecordKind → List FieldSpec
  | .metadataHeader => Layout.metadataHeader
  | .imageDefinition => Layout.imageDefinition
  | .assemblyDefinition => Layout.assemblyDefinition
  | .typeDefinition => Layout.typeDefinition
  | .methodDefinition => Layout.methodDefinition
  | .parameterDefinition => Layout.parameterDefinition
  | .fieldDefinition => Layout.fieldDefinition
  | .propertyDefinition => Layout.propertyDefinition
  | .eventDefinition => Layout.eventDefinition
  | .fieldDefaultValue => Layout.fieldDefaultValue
  | .parameterDefaultValue => Layout.parameterDefaultValue
  | .fieldMarshaledSize => Layout.fieldMarshaledSize
  | .genericContainer => Layout.genericContainer
  | .genericParameter => Layout.genericParameter
  | .customAttributeTypeRange => Layout.customAttributeTypeRange
  | .customAttributeDataRange => Layout.customAttributeDataRange
  | .fieldRef => Layout.fieldRef
  | .stringLiteral => Layout.stringLiteral
  | .codeRegistration => Layout.codeRegistration
  | .metadataRegistration => Layout.metadataRegistration
  | .typeDescriptor => Layout.typeDescriptor
  | .genericClass => Layout.genericClass
  | .genericContext => Layout.genericContext
  | .genericInst => Layout.genericInst
  | .arrayType => Layout.arrayType
  | .methodSpec => Layout.methodSpec
  | .genericMethodFunctions => Layout.genericMethodFunctions
  | .codeGenModule => Layout.codeGenModule

end RecordKind

/-- The declared layout of a kind. -/
def Layout.of (kind : RecordKind) : Layout :=
  ⟨kind, kind.axis, kind.fields⟩

end GlobalMetadata
