import GlobalMetadata.Graph.Arena

/-!
# Spelling types

A type has two spellings. Its *display* is what source code writes: `List<int>`, `Outer.Inner`,
`string[,]`. Its *native* spelling is how native code stores a value of it: a number type, a
structure for a value type, a pointer to a structure for any other class, and for an enumeration
whatever its underlying type is stored as.

A spelling follows references from types to their parts and from classes to their declaring classes
and arguments. The functions ending in `Within` follow at most so many references and give `none`
when that is not enough; the others allow for every type and every class once, which is enough
whenever nothing leads back to itself. That is so for displays, since a class comes after all that
its display mentions. An enumeration may be stored like itself, on the other hand. Following what it
is stored as never ends, and it has no native spelling at all.
-/

namespace GlobalMetadata.Arena

/-- A bound on the references that a spelling follows when none leads back to itself. -/
def spellingBound (arena : Arena) : Nat :=
  arena.types.size + arena.classes.size + 1

/-! ### Display -/

/-- The display of a type or class that does not exist. -/
def unknownDisplay : String :=
  "?"

mutual

/-- The display of a type, following at most `fuel` references. -/
def displayWithin (arena : Arena) : Nat → TypeId → Option String
  | 0, _ => none
  | fuel + 1, id =>
    match arena.type? id with
    | none => some unknownDisplay
    | some .void => some "void"
    | some (.primitive kind) => some kind.displayName
    | some (.class c) => classDisplayWithin arena fuel c
    | some (.array element rank) => do
      let commas := String.ofList (List.replicate (rank - 1) ',')
      return (← displayWithin arena fuel element) ++ "[" ++ commas ++ "]"
    | some (.pointer element) => return (← displayWithin arena fuel element) ++ "*"
    | some (.byref element) => return "ref " ++ (← displayWithin arena fuel element)
    | some (.parameter _ _ name) => some name

/-- The display of a class without its namespace, following at most `fuel` references. -/
def classDisplayWithin (arena : Arena) : Nat → ClassId → Option String
  | 0, _ => none
  | fuel + 1, id =>
    match arena.class? id with
    | none => some unknownDisplay
    | some c => do
      let outer ←
        match c.declaring with
        | some declaring => (· ++ ".") <$> classDisplayWithin arena fuel declaring
        | none => some ""
      let args ← c.genericArgs.mapM (displayWithin arena fuel)
      let list := if args.isEmpty then "" else "<" ++ ", ".intercalate args ++ ">"
      return outer ++ Name.stripArity c.name ++ list

end

/-- How source code writes a type. -/
def display (arena : Arena) (id : TypeId) : String :=
  (arena.displayWithin arena.spellingBound id).getD unknownDisplay

/-- How source code writes a class, without its namespace. -/
def classDisplay (arena : Arena) (id : ClassId) : String :=
  (arena.classDisplayWithin arena.spellingBound id).getD unknownDisplay

/-- How source code writes a class, with its namespace. -/
def classFullDisplay (arena : Arena) (id : ClassId) : String :=
  match arena.class? id with
  | none => unknownDisplay
  | some c =>
    if c.namespaceName = "" then arena.classDisplay id
    else c.namespaceName ++ "." ++ arena.classDisplay id

/-! ### Native spelling -/

/-- A pointer to a value with a given spelling; a pointer to nothing is a pointer to anything. -/
def pointerTo (element : String) : String :=
  element ++ "*"

/-- The native spelling of a type that does not exist. -/
def unknownNative : String :=
  "void*"

/-- The structure behind an object of no known class. -/
def objectStructure : String :=
  "Il2CppObject"

/-- The identifier of a class in native code. -/
def classIdentifier (arena : Arena) (id : ClassId) : String :=
  Name.sanitize (arena.classFullDisplay id)

/-- The name of a type as the element of an array, following at most `fuel` references. -/
def elementNameWithin (arena : Arena) : Nat → TypeId → Option String
  | 0, _ => none
  | fuel + 1, id =>
    match arena.type? id with
    | some (.primitive kind) => some kind.elementName
    | some (.class c) => some (arena.classIdentifier c)
    | some (.array element _) => (· ++ "_array") <$> elementNameWithin arena fuel element
    | _ => some objectStructure

/-- The name of a type as the element of an array. -/
def elementName (arena : Arena) (id : TypeId) : String :=
  (arena.elementNameWithin arena.spellingBound id).getD objectStructure

/-- The structure of a class that is no enumeration: itself for a value type, a pointer to it for
any other class. -/
def structureName (arena : Arena) (id : ClassId) (c : ResolvedClass) : String :=
  let structureId := arena.classIdentifier id ++ "_o"
  if c.isValueType then structureId else pointerTo structureId

mutual

/-- The native spelling of a type, following at most `fuel` references. -/
def nativeWithin (arena : Arena) : Nat → TypeId → Option String
  | 0, _ => none
  | fuel + 1, id =>
    match arena.type? id with
    | none => some unknownNative
    | some .void => some "void"
    | some (.primitive kind) => some kind.nativeName
    | some (.class c) => classNativeWithin arena fuel c
    | some (.array element _) => some (pointerTo (arena.elementName element ++ "_array"))
    | some (.pointer element) | some (.byref element) =>
      pointerTo <$> nativeWithin arena fuel element
    | some (.parameter _ _ _) => some (pointerTo objectStructure)

/-- The native spelling of a value of a class, following at most `fuel` references. -/
def classNativeWithin (arena : Arena) : Nat → ClassId → Option String
  | 0, _ => none
  | fuel + 1, id =>
    match arena.class? id with
    | none => some (pointerTo objectStructure)
    | some c =>
      if c.isEnum then
        match c.underlying with
        | some underlying => nativeWithin arena fuel underlying
        | none => some TypeKind.i4.nativeName
      else some (arena.structureName id c)

end

/-- How native code stores a value of a type, if following what it is stored as comes to an end. -/
def native (arena : Arena) (id : TypeId) : Option String :=
  arena.nativeWithin arena.spellingBound id

/-- How native code stores a value of a class, if following what it is stored as comes to an end. -/
def classNative (arena : Arena) (id : ClassId) : Option String :=
  arena.classNativeWithin arena.spellingBound id

end GlobalMetadata.Arena
