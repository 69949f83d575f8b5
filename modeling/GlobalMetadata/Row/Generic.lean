import GlobalMetadata.Row

/-!
# Generic parameters

A generic container is the list of parameters that one type or method declares.
-/

namespace GlobalMetadata

/-- The generic parameters of one type or method. -/
structure GenericContainer where
  /-- The type or method. -/
  ownerIndex : Int
  /-- The number of parameters. -/
  parameterCount : Nat
  /-- Whether the owner is a method. -/
  isMethod : Bool
  parameterStart : Option Nat
  deriving DecidableEq, Repr

instance : Row GenericContainer where
  kind := .genericContainer
  ofRecord r := do
    return {
      ownerIndex := ← r.int32 .ownerIndex
      parameterCount := ← r.uint32 .typeArgc
      isMethod := (← r.uint32 .isMethod) != 0
      parameterStart := ← r.index .genericParameterStart
    }

/-- A generic parameter. -/
structure GenericParameter where
  ownerIndex : Int
  /-- The place of the name in the string heap. -/
  nameIndex : Nat
  constraintsStart : Int
  /-- The number of constraints. -/
  constraintsCount : Int
  /-- The position among the parameters of the owner. -/
  number : Nat
  flags : Nat
  deriving DecidableEq, Repr

instance : Row GenericParameter where
  kind := .genericParameter
  ofRecord r := do
    return {
      ownerIndex := ← r.int32 .ownerIndex
      nameIndex := ← r.uint32 .nameIndex
      constraintsStart := ← r.int16 .constraintsStart
      constraintsCount := ← r.int16 .constraintsCount
      number := ← r.uint16 .num
      flags := ← r.uint16 .flags
    }

end GlobalMetadata
