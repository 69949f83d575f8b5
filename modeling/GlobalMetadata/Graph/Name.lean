import GlobalMetadata.TypeKind
import Std.Data.ExtTreeMap

/-!
# Names

How names of the metadata become identifiers and paths, and how methods are written and told apart.

* `Name.sanitize` makes an identifier of any text;
* `Name.qualified` is the path of a class: the segments of its namespace, or `_` when it has none,
  then the names of its declaring classes and its own;
* `Name.signature` writes a method, and `Name.uniqueIds` numbers methods that share a name and a
  number of parameters.
-/

namespace GlobalMetadata.Name

/-! ### Identifiers -/

/-- A character that an identifier may contain. -/
def isWordChar (c : Char) : Bool :=
  c.isAlphanum || c == '_'

/-- **Identifiers.** Every character that is not a letter, a digit or an underscore becomes an
underscore; an empty text becomes one, and a leading digit gets one in front. -/
def sanitizeChars (text : List Char) : List Char :=
  match text.map fun c => if isWordChar c then c else '_' with
  | [] => ['_']
  | c :: rest => if c.isDigit then '_' :: c :: rest else c :: rest

/-- The identifier made of a name. -/
def sanitize (name : String) : String :=
  String.ofList (sanitizeChars name.toList)

/-- The name without the mark for its number of generic parameters. -/
def stripArity (name : String) : String :=
  String.ofList (name.toList.takeWhile (· ≠ '\x60'))

/-! ### Paths -/

/-- The parts of a text between its dots. -/
def dotted : List Char → List (List Char)
  | [] => [[]]
  | c :: rest =>
    if c = '.' then [] :: dotted rest
    else
      match dotted rest with
      | [] => [[c]]
      | part :: parts => (c :: part) :: parts

/-- The identifiers that a namespace contributes to a path. -/
def segments (namespaceName : String) : List String :=
  if namespaceName = "" then ["_"]
  else (dotted namespaceName.toList).map fun part => String.ofList (sanitizeChars part)

/-- What stands between the identifiers of a path. -/
def separator : String :=
  "::"

/-- The path of a class. A nested class continues the path of the class around it, whatever its own
namespace is. -/
def qualified (namespaceName : String) (declaring : Option String) (name : String) : String :=
  let start := declaring.getD (separator.intercalate (segments namespaceName))
  start ++ separator ++ sanitize name

/-! ### Methods -/

/-- The written form of a method; parameters are pairs of a type and a name. -/
def signature (isStatic : Bool) (returnType name : String) (parameters : List (String × String)) :
    String :=
  let written := parameters.map fun (type, name) => type ++ " " ++ name
  let marker := if isStatic then "static " else ""
  marker ++ returnType ++ " " ++ name ++ "(" ++ ", ".intercalate written ++ ")"

/-- The identifier of a method that shares it with no other one. -/
def baseId (name : String) (parameterCount : Nat) : String :=
  sanitize name ++ "_" ++ parameterCount.repr

/-- How often each text occurs; a text that is not there occurs 0 times. -/
abbrev Tally :=
  Std.ExtTreeMap String Nat

/-- How often a text occurs. -/
def Tally.count (tally : Tally) (text : String) : Nat :=
  tally.getD text 0

/-- The tally with one more occurrence of a text. -/
def Tally.add (tally : Tally) (text : String) : Tally :=
  tally.insert text (tally.count text + 1)

/-- How often each text of a list occurs. -/
def Tally.ofList (texts : List String) : Tally :=
  texts.foldl Tally.add ∅

/-- Numbers the texts that occur more than once in `all`; `before` counts those in front. -/
def ranked (all : Tally) : Tally → List String → List String
  | _, [] => []
  | before, base :: rest =>
    let id := if all.count base = 1 then base else base ++ "_" ++ (before.count base + 1).repr
    id :: ranked all (before.add base) rest

/-- **Method identifiers.** Each method is given by its name and its number of parameters. Methods
that share both get a rank, counted from 1 in the given order. -/
def uniqueIds (methods : List (String × Nat)) : List String :=
  let bases := methods.map fun (name, count) => baseId name count
  ranked (.ofList bases) ∅ bases

end GlobalMetadata.Name

/-! ### Primitive types -/

namespace GlobalMetadata.TypeKind

/-- How source code spells a type that its kind describes. -/
def displayName : TypeKind → String
  | .void => "void"
  | .boolean => "bool"
  | .char => "char"
  | .i1 => "sbyte"
  | .u1 => "byte"
  | .i2 => "short"
  | .u2 => "ushort"
  | .i4 => "int"
  | .u4 => "uint"
  | .i8 => "long"
  | .u8 => "ulong"
  | .r4 => "float"
  | .r8 => "double"
  | .string => "string"
  | .i | .fnPtr => "IntPtr"
  | .u => "UIntPtr"
  | .typedByRef => "TypedReference"
  | _ => "object"

/-- How native code stores a value of a type that its kind describes. -/
def nativeName : TypeKind → String
  | .void => "void"
  | .boolean => "un_bool"
  | .char => "un_char"
  | .i1 => "un_sbyte"
  | .u1 => "un_byte"
  | .i2 => "un_short"
  | .u2 => "un_ushort"
  | .i4 => "un_int"
  | .u4 => "un_uint"
  | .i8 => "un_long"
  | .u8 => "un_ulong"
  | .r4 => "un_float"
  | .r8 => "un_double"
  | .string => "System_String_o*"
  | .i | .fnPtr => "intptr_t"
  | .u => "uintptr_t"
  | _ => "Il2CppObject*"

/-- The name of a type that its kind describes, where it is the element of an array. -/
def elementName : TypeKind → String
  | .boolean => "System_Boolean"
  | .char => "System_Char"
  | .i1 => "System_SByte"
  | .u1 => "System_Byte"
  | .i2 => "System_Int16"
  | .u2 => "System_UInt16"
  | .i4 => "System_Int32"
  | .u4 => "System_UInt32"
  | .i8 => "System_Int64"
  | .u8 => "System_UInt64"
  | .r4 => "System_Single"
  | .r8 => "System_Double"
  | .string => "System_String"
  | .i | .fnPtr => "System_IntPtr"
  | .u => "System_UIntPtr"
  | _ => "System_Object"

end GlobalMetadata.TypeKind
