import GlobalMetadata.Layout.Basic
import GlobalMetadata.Section
import GlobalMetadata.Text.Utf8
import GlobalMetadata.TypeKind

/-!
# Errors

Everything that can go wrong, by cause. Decoding stops at the first error; resolution of the type
graph drops the class at hand, records the error and goes on.

* `Malformation` lists the ways in which stored data can be inconsistent;
* `Dangling` lists the references that cannot be followed. These, and only these, are recoverable;
* `Error.message` is the wording of an error.
-/

namespace GlobalMetadata

/-- A way in which stored data can be inconsistent. -/
inductive Malformation
  /-- A text is not a version. -/
  | versionText (text : String)
  /-- An integer has no supported width. -/
  | integerWidth (width : Nat)
  /-- The text at an offset is not UTF-8. -/
  | textAtOffset (offset : Nat) (fault : Utf8.Fault)
  /-- The text at an address is not UTF-8. -/
  | textAtAddress (address : Nat) (fault : Utf8.Fault)
  /-- A name in the string heap is not UTF-8. -/
  | nameEncoding (index : Nat)
  /-- A name in the string heap has no end. -/
  | nameUnterminated (index : Nat)
  /-- A string literal is not UTF-8. -/
  | literalEncoding (index : Nat)
  /-- The kind tag of a type descriptor is unknown. -/
  | kindTag (tag : Nat)
  /-- The blob does not start with the magic number. -/
  | magic (found : Nat)
  /-- The integer version of the blob does not fit a version. -/
  | integerVersion (found : Nat)
  /-- The image holds several architectures. -/
  | fatImage
  /-- The image is in no known executable format. -/
  | container
  deriving DecidableEq, Repr

/-- The wording of a malformation. -/
def Malformation.message : Malformation → String
  | .versionText text => s!"Invalid version - {text}"
  | .integerWidth width => s!"Unsupported integer width - {width}"
  | .textAtOffset offset fault => s!"Invalid UTF-8 string at {offset} - {fault.message}"
  | .textAtAddress address fault =>
    s!"Invalid UTF-8 string at 0x{Numeral.hex address} - {fault.message}"
  | .nameEncoding index => s!"Invalid string at index - {index}"
  | .nameUnterminated index => s!"Unterminated string at index - {index}"
  | .literalEncoding index => s!"Invalid string literal - {index}"
  | .kindTag tag => s!"Unknown type descriptor kind 0x{Numeral.hexPadded 2 tag}"
  | .magic found => s!"Invalid metadata sanity - 0x{Numeral.hexPadded 8 found}"
  | .integerVersion found => s!"Invalid metadata version - {found}"
  | .fatImage => "Fat Mach-O images must be thinned to a single architecture first"
  | .container => "Unsupported executable container"

/-- The tables whose rows are referred to as a start and a count. -/
inductive MemberTable
  /-- The fields of a type. -/
  | field
  /-- The methods of a type. -/
  | method
  /-- The parameters of a method. -/
  | parameter
  /-- The types nested in a type. -/
  | nestedType
  deriving DecidableEq, Repr

/-- The name of a member table in diagnostics. -/
def MemberTable.label : MemberTable → String
  | .field => "field"
  | .method => "method"
  | .parameter => "parameter"
  | .nestedType => "nested type"

/-- A reference that cannot be followed. -/
inductive Dangling
  /-- The types around a type definition are nested too deeply, or around each other. -/
  | declaringChain (definition limit : Nat)
  /-- A class of a type definition does not exist. -/
  | classOf (id definition : Nat)
  /-- A class does not exist. -/
  | classId (id : Nat)
  /-- A generic container does not exist. -/
  | container (index declared : Nat)
  /-- A generic container has parameters but no first one. -/
  | containerStart (index count : Nat)
  /-- The parameters of a generic container reach past the end of their table. -/
  | containerRange (first last index declared : Nat)
  /-- A field has no type. -/
  | fieldType (name : String)
  /-- A parameter has no type. -/
  | parameterType (name : String)
  /-- A nested type is given by a negative index. -/
  | nestedIndex (definition : Nat) (index : Int)
  /-- A nested type is declared by another type. -/
  | nestedOwner (definition nested : Nat)
  /-- Descriptors refer to each other too deeply. -/
  | descriptorNesting (kind : TypeKind) (limit : Nat)
  /-- A generic parameter does not exist. -/
  | genericParameter (index declared : Nat)
  /-- The definition of an instantiation is no type definition. -/
  | instantiated (address : Nat) (payload : Payload)
  /-- The index of an instantiated definition is negative. -/
  | instantiatedIndex (index : Int)
  /-- A declaring type is no type definition. -/
  | declaringType (payload : Payload)
  /-- A type descriptor does not exist. -/
  | typeIndex (index registered : Nat)
  /-- A type definition does not exist. -/
  | typeDefinition (index declared : Nat)
  /-- A run of members reaches outside its table. -/
  | members (table : MemberTable) (first last : Int) (declared : Nat)
  deriving DecidableEq, Repr

/-- The wording of a dangling reference. -/
def Dangling.message : Dangling → String
  | .declaringChain definition limit =>
    s!"declaring chain of type definition {definition} is deeper than {limit}"
  | .classOf id definition => s!"class {id} of type definition {definition}"
  | .classId id => s!"class {id} is not in the arena"
  | .container index declared => s!"generic container {index} outside the {declared} declared"
  | .containerStart index count =>
    s!"generic container {index} declares {count} parameters without a first one"
  | .containerRange first last index declared =>
    s!"generic parameters {first}..{last} of container {index} outside the {declared} declared"
  | .fieldType name => s!"field {name} has no type"
  | .parameterType name => s!"parameter {name} has no type"
  | .nestedIndex definition index => s!"type definition {definition} nests type {index}"
  | .nestedOwner definition nested =>
    s!"type definition {definition} nests type definition {nested}, which is not declared by it"
  | .descriptorNesting kind limit => s!"{kind.name} descriptor nested deeper than {limit}"
  | .genericParameter index declared =>
    s!"generic parameter {index} outside the {declared} declared"
  | .instantiated address payload =>
    s!"generic class definition at 0x{Numeral.hex address} is {payload.text}, not a type definition"
  | .instantiatedIndex index => s!"generic class with definition index {index}"
  | .declaringType payload => s!"declaring type is {payload.text}, not a type definition"
  | .typeIndex index registered => s!"type index {index} outside the {registered} registered types"
  | .typeDefinition index declared =>
    s!"type definition {index} outside the {declared} definitions"
  | .members table first last declared =>
    s!"{table.label} range {first}..{last} outside the {declared} declared"

/-- Everything that can go wrong. -/
inductive Error
  /-- A version of the pair has no declared layout. -/
  | unsupportedVersion (pair : VersionPair)
  /-- A section of the blob reaches outside of it. -/
  | corruptSection (id : SectionId) (offset : Nat)
  /-- A structure has no such field in this version. -/
  | fieldAbsent (kind : RecordKind) (field : String) (version : Version)
  /-- A reference cannot be followed. -/
  | unresolved (reference : Dangling)
  /-- An address lies in no segment of the image. -/
  | unmapped (address : Nat)
  /-- Stored data is inconsistent. -/
  | malformed (malformation : Malformation)
  /-- A read would have gone past the end of the data. -/
  | outOfBounds
  /-- There is no data at all. -/
  | empty
  /-- A file cannot be opened. -/
  | unreadableFile
  /-- The headers of an executable cannot be read. -/
  | unreadableContainer
  deriving DecidableEq, Repr

namespace Error

/-- The wording of an error; the two that come from outside the library have none. -/
def message : Error → Option String
  | .unsupportedVersion pair =>
    let metadata := pair.metadata.text
    let registration := pair.registration.text
    some s!"Unsupported version pair - metadata {metadata}, registration {registration}"
  | .corruptSection id offset =>
    some s!"Corrupt data in section '{id.label}' at offset 0x{Numeral.hex offset}"
  | .fieldAbsent kind field version =>
    some s!"Field '{field}' of {kind.name} is not present for version {version.text}"
  | .unresolved reference => some s!"Unresolved type reference - {reference.message}"
  | .unmapped address => some s!"Virtual address 0x{Numeral.hex address} is not mapped"
  | .malformed malformation => some malformation.message
  | .outOfBounds => some "Out of Bound read would have occurred!"
  | .empty => some "Provided input was empty"
  | .unreadableFile => none
  | .unreadableContainer => none

/-- Only a dangling reference leaves the rest of the data usable. -/
def isRecoverable : Error → Bool
  | .unresolved _ => true
  | _ => false

end Error

end GlobalMetadata
