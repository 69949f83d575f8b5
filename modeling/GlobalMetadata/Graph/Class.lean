import GlobalMetadata.Graph.Type
import GlobalMetadata.Row.TypeDefinition

/-!
# Classes of the graph

A class is a type definition, or an instantiation of one with generic arguments; its `ClassKey` says
which. The identity, the names and the declaring class are fixed when the class is created. Its
members come later and all at once: a class has either all of its members or none, and one without
them is left out of every listing.
-/

namespace GlobalMetadata

/-- What a class is: a type definition and the arguments it is instantiated with. -/
@[ext]
structure ClassKey where
  /-- The position of the type definition. -/
  definition : Nat
  /-- The arguments of the parameters of the type. -/
  classArgs : List TypeId
  /-- The arguments of the parameters of a method. -/
  methodArgs : List TypeId
  deriving DecidableEq, Repr

namespace ClassKey

/-- A type definition without arguments. -/
def ofDefinition (definition : Nat) : ClassKey :=
  ⟨definition, [], []⟩

/-- Whether there are any arguments. -/
def isInstantiation (key : ClassKey) : Bool :=
  !key.classArgs.isEmpty || !key.methodArgs.isEmpty

/-- The numbers that spell a key out. -/
def code (key : ClassKey) : List Nat :=
  key.definition :: key.classArgs.length :: (key.classArgs ++ key.methodArgs).map TypeId.index

/-- Different keys are spelt differently. -/
theorem code_inj {a b : ClassKey} : a.code = b.code ↔ a = b := by
  refine ⟨fun same => ?_, congrArg code⟩
  obtain ⟨definition, classArgs, methodArgs⟩ := a
  obtain ⟨definition', classArgs', methodArgs'⟩ := b
  simp only [code, List.cons.injEq] at same
  obtain ⟨rfl, sameLength, sameArgs⟩ := same
  have args := (List.map_inj_right fun _ _ => TypeId.ext).mp sameArgs
  obtain ⟨rfl, rfl⟩ := List.append_inj args sameLength
  rfl

/-- A key without arguments is that of a definition. -/
theorem eq_ofDefinition {key : ClassKey} (plain : key.isInstantiation = false) :
    key = .ofDefinition key.definition := by
  obtain ⟨definition, classArgs, methodArgs⟩ := key
  simp only [isInstantiation, Bool.or_eq_false_iff, Bool.not_eq_false', List.isEmpty_iff] at plain
  rw [plain.1, plain.2]
  rfl

end ClassKey

/-- A field of a class. -/
structure ResolvedField where
  name : String
  /-- Whether the field belongs to the class and not to its instances. -/
  isStatic : Bool
  /-- The type, with the arguments of the class put in. -/
  type : TypeId
  declaring : ClassId
  token : Option Nat
  deriving DecidableEq, Repr

/-- A parameter of a method. -/
structure ResolvedParameter where
  name : String
  type : TypeId
  deriving DecidableEq, Repr

/-- A method of a class. -/
structure ResolvedMethod where
  name : String
  /-- An identifier made of the name and the number of parameters, and a rank among overloads. -/
  uniqueId : String
  signature : String
  /-- Whether the method has no receiver. -/
  isStatic : Bool
  /-- The type of the result. -/
  returnType : TypeId
  /-- The parameters, in order. -/
  parameters : List ResolvedParameter
  declaring : ClassId
  token : Nat
  /-- The address of the compiled code, which only methods of definitions have. -/
  address : Option Nat
  deriving DecidableEq, Repr

/-- The members of a class. -/
structure Members where
  /-- The underlying type of an enumeration. -/
  underlying : Option TypeId
  /-- The nested classes, in table order. -/
  nested : List ClassId
  /-- The fields, by name. -/
  fields : List ResolvedField
  /-- The methods, by signature. -/
  methods : List ResolvedMethod
  deriving DecidableEq, Repr

/-- A class of the graph. -/
structure ResolvedClass where
  /-- What the class is. -/
  key : ClassKey
  /-- The managed module that declares the definition. -/
  image : Option Nat
  /-- The namespace of the outermost declaring type. -/
  namespaceName : String
  /-- The name, with the mark for its number of generic parameters. -/
  name : String
  /-- The path of identifiers from the namespace to the name. -/
  qualifiedName : String
  /-- The class around this one. -/
  declaring : Option ClassId
  /-- The generic arguments, or the open parameters of a generic definition. -/
  genericArgs : List TypeId
  /-- The attribute flags that have a meaning. -/
  flags : Nat
  isValueType : Bool
  isEnum : Bool
  /-- The metadata token of the definition. -/
  token : Option Nat
  /-- How deeply generic arguments nest: 0 for a definition. -/
  depth : Nat
  /-- The members, once they are resolved. -/
  members : Option Members
  deriving DecidableEq, Repr

namespace ResolvedClass

/-- The position of the type definition. -/
def definition (c : ResolvedClass) : Nat :=
  c.key.definition

/-- Whether the class is an instantiation and not a definition. -/
def isInstantiation (c : ResolvedClass) : Bool :=
  c.key.isInstantiation

/-- Whether the class is an interface. -/
def isInterface (c : ResolvedClass) : Bool :=
  c.flags.testBit TypeDefinition.interfaceBit

/-- Whether the members are resolved. -/
def isResolved (c : ResolvedClass) : Bool :=
  c.members.isSome

/-- The underlying type of an enumeration. -/
def underlying (c : ResolvedClass) : Option TypeId :=
  c.members >>= (·.underlying)

/-- The nested classes. -/
def nested (c : ResolvedClass) : List ClassId :=
  c.members.elim [] (·.nested)

/-- The fields. -/
def fields (c : ResolvedClass) : List ResolvedField :=
  c.members.elim [] (·.fields)

/-- The methods. -/
def methods (c : ResolvedClass) : List ResolvedMethod :=
  c.members.elim [] (·.methods)

/-- The first field with a given name. -/
def field? (c : ResolvedClass) (name : String) : Option ResolvedField :=
  c.fields.find? (·.name = name)

/-- The first method with a given identifier. -/
def method? (c : ResolvedClass) (uniqueId : String) : Option ResolvedMethod :=
  c.methods.find? (·.uniqueId = uniqueId)

/-- The class with members, unless it has some already. -/
def publish (c : ResolvedClass) (members : Members) : ResolvedClass :=
  { c with members := c.members <|> some members }

end ResolvedClass

end GlobalMetadata
