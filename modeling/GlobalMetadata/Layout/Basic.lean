import GlobalMetadata.Bytes
import GlobalMetadata.Layout.Field
import GlobalMetadata.Version

/-!
# Declared layouts

A structure of the format is declared once, as the ordered list of all fields that it ever had. Each
field has a width and the version windows in which it exists. What a structure looks like for a
given pair of versions follows from that list alone (`GlobalMetadata.Layout.Resolved`).

* `FieldSpec.isPresent` decides whether a field exists for a pair of versions;
* `RecordKind` lists the kinds of structure.
-/

namespace GlobalMetadata

/-! ### Widths -/

/-- The stored width of a field. -/
inductive FieldWidth
  /-- The size of a pointer of the image. -/
  | native
  /-- Two bytes. -/
  | int16
  /-- Four bytes. -/
  | int32
  /-- Eight bytes. -/
  | int64
  /-- One byte. -/
  | byte
  deriving DecidableEq, Repr

/-- The number of bytes that a field takes in an image with pointers of width `p`. -/
def FieldWidth.bytes (p : PointerWidth) : FieldWidth → Nat
  | .native => p.bytes
  | .int16 => 2
  | .int32 => 4
  | .int64 => 8
  | .byte => 1

/-! ### Version windows -/

/-- An inclusive range of versions; a missing bound is open. -/
structure Window where
  /-- The axis whose version is compared; without one, that of the structure. -/
  axis : Option Axis
  /-- The first version inside. -/
  first : Option Version
  /-- The last version inside. -/
  last : Option Version
  deriving DecidableEq, Repr

namespace Window

/-- Every version from `v` on. -/
def since (v : Version) : Window :=
  ⟨none, some v, none⟩

/-- Every version up to and including `v`. -/
def upTo (v : Version) : Window :=
  ⟨none, none, some v⟩

/-- Every version from `v` to `w`, both included. -/
def between (v w : Version) : Window :=
  ⟨none, some v, some w⟩

/-- One version only. -/
def exactly (v : Version) : Window :=
  between v v

/-- The same bounds, compared on a given axis. -/
def onAxis (window : Window) (axis : Axis) : Window :=
  { window with axis := some axis }

/-- Whether a version lies inside the bounds. -/
def contains (window : Window) (v : Version) : Bool :=
  window.first.all (· ≤ v) && window.last.all (v ≤ ·)

/-- Whether the window holds for a pair; a window without an axis of its own reads `axis`. -/
def holds (window : Window) (pair : VersionPair) (axis : Axis) : Bool :=
  window.contains (pair.on (window.axis.getD axis))

end Window

/-! ### Fields and structures -/

/-- The declaration of one field. -/
structure FieldSpec where
  /-- The name under which the value is known. -/
  field : Field
  width : FieldWidth
  /-- The windows in which the field exists; none at all means always. -/
  windows : List Window
  deriving DecidableEq, Repr

namespace FieldSpec

/-- Whether the field exists for a pair, in a structure that follows `axis`. -/
def isPresent (spec : FieldSpec) (pair : VersionPair) (axis : Axis) : Bool :=
  spec.windows.isEmpty || spec.windows.any (·.holds pair axis)

/-- A pointer-sized field. -/
def native (field : Field) (windows : List Window := []) : FieldSpec :=
  ⟨field, .native, windows⟩

/-- A four-byte field. -/
def int32 (field : Field) (windows : List Window := []) : FieldSpec :=
  ⟨field, .int32, windows⟩

/-- A two-byte field that always exists. -/
def int16 (field : Field) : FieldSpec :=
  ⟨field, .int16, []⟩

/-- An eight-byte field that always exists. -/
def int64 (field : Field) : FieldSpec :=
  ⟨field, .int64, []⟩

/-- A one-byte field that always exists. -/
def byte (field : Field) : FieldSpec :=
  ⟨field, .byte, []⟩

end FieldSpec

/-- The kinds of structure: those of the blob first, then those of the native image. -/
inductive RecordKind
  /-- The header of the blob: its magic number, its version and the place of every section. -/
  | metadataHeader
  /-- A managed module: its name and the run of type definitions that it declares. -/
  | imageDefinition
  /-- An assembly, with its name record embedded. -/
  | assemblyDefinition
  /-- A class, value type, enumeration or interface, and where its members stand. -/
  | typeDefinition
  /-- A method and where its parameters stand. -/
  | methodDefinition
  /-- A parameter of a method. -/
  | parameterDefinition
  /-- A field of a type. -/
  | fieldDefinition
  /-- A property of a type. -/
  | propertyDefinition
  /-- An event of a type. -/
  | eventDefinition
  /-- The default value of a field. -/
  | fieldDefaultValue
  /-- The default value of a parameter. -/
  | parameterDefaultValue
  /-- The size of a field in unmanaged memory. -/
  | fieldMarshaledSize
  /-- The generic parameters that one type or method declares. -/
  | genericContainer
  /-- A generic parameter. -/
  | genericParameter
  /-- The attribute types of one owner. -/
  | customAttributeTypeRange
  /-- Where the attribute data of one owner starts. -/
  | customAttributeDataRange
  /-- A field, named by its owner and its position there. -/
  | fieldRef
  /-- A string literal: its length and its place in the literal data. -/
  | stringLiteral
  /-- The root of the code tables. -/
  | codeRegistration
  /-- The root of the type tables. -/
  | metadataRegistration
  /-- A packed type descriptor. -/
  | typeDescriptor
  /-- An instantiation of a generic type. -/
  | genericClass
  /-- The arguments in force for a class and a method. -/
  | genericContext
  /-- A list of generic arguments. -/
  | genericInst
  /-- An array shape. The fields follow each other without padding, also after the single bytes. -/
  | arrayType
  /-- A method together with its generic arguments. -/
  | methodSpec
  /-- The code of one instantiated method. -/
  | genericMethodFunctions
  /-- The code tables of one managed module. -/
  | codeGenModule
  deriving DecidableEq, Repr

namespace RecordKind

/-- Every kind, in order. -/
def all : List RecordKind :=
  [.metadataHeader, .imageDefinition, .assemblyDefinition, .typeDefinition, .methodDefinition,
    .parameterDefinition, .fieldDefinition, .propertyDefinition, .eventDefinition,
    .fieldDefaultValue, .parameterDefaultValue, .fieldMarshaledSize, .genericContainer,
    .genericParameter, .customAttributeTypeRange, .customAttributeDataRange, .fieldRef,
    .stringLiteral, .codeRegistration, .metadataRegistration, .typeDescriptor, .genericClass,
    .genericContext, .genericInst, .arrayType, .methodSpec, .genericMethodFunctions,
    .codeGenModule]

/-- The written name. -/
def name : RecordKind → String
  | .metadataHeader => "MetadataHeader"
  | .imageDefinition => "ImageDefinition"
  | .assemblyDefinition => "AssemblyDefinition"
  | .typeDefinition => "TypeDefinition"
  | .methodDefinition => "MethodDefinition"
  | .parameterDefinition => "ParameterDefinition"
  | .fieldDefinition => "FieldDefinition"
  | .propertyDefinition => "PropertyDefinition"
  | .eventDefinition => "EventDefinition"
  | .fieldDefaultValue => "FieldDefaultValue"
  | .parameterDefaultValue => "ParameterDefaultValue"
  | .fieldMarshaledSize => "FieldMarshaledSize"
  | .genericContainer => "GenericContainer"
  | .genericParameter => "GenericParameter"
  | .customAttributeTypeRange => "CustomAttributeTypeRange"
  | .customAttributeDataRange => "CustomAttributeDataRange"
  | .fieldRef => "FieldRef"
  | .stringLiteral => "StringLiteral"
  | .codeRegistration => "CodeRegistration"
  | .metadataRegistration => "MetadataRegistration"
  | .typeDescriptor => "TypeDescriptor"
  | .genericClass => "GenericClass"
  | .genericContext => "GenericContext"
  | .genericInst => "GenericInst"
  | .arrayType => "ArrayType"
  | .methodSpec => "MethodSpec"
  | .genericMethodFunctions => "GenericMethodFunctions"
  | .codeGenModule => "CodeGenModule"

instance : ToString RecordKind where
  toString := name

end RecordKind

/-- The declaration of a structure. -/
structure Layout where
  /-- The kind that is declared. -/
  kind : RecordKind
  /-- The axis that the windows of the fields refer to. -/
  axis : Axis
  /-- All fields that the structure ever had, in stored order. -/
  fields : List FieldSpec
  deriving Repr

end GlobalMetadata
