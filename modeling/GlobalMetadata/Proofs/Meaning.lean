import GlobalMetadata.Proofs.Display

/-!
# The meaning of descriptors and members

What a descriptor stands for can be said without an arena. This module says it once more, by plain
recursion over the image and the tables: terms take the place of ids, and there is nothing to look
up and nothing to add.

A `Meaning` has a value, which may be missing, and tells two more things that happen on the way,
also when the value is missing in the end:

* `demands`: the keys of the instantiations that are asked for;
* `cuts`: how many instantiations are cut off because they nest too deeply.

`Metadata.denote` is the value for a descriptor. The functions of this module follow those of
resolution one by one; what is left of a definition is the chain of types around it, since that is
what creating its class takes.
-/

namespace GlobalMetadata

/-! ### Meanings -/

/-- What something stands for, and what is asked for and cut off on the way. -/
@[ext]
structure Meaning (α : Type) where
  /-- The result, if there is one. -/
  value : Option α
  /-- The keys that are asked for. -/
  demands : List KeyTerm
  /-- How many instantiations are cut off. -/
  cuts : Nat

namespace Meaning

variable {α β : Type}

/-- A sequence of two; the second one matters only if the first one has a value. -/
def andThen (x : Meaning α) (f : α → Meaning β) : Meaning β :=
  match x.value with
  | none => ⟨none, x.demands, x.cuts⟩
  | some a => ⟨(f a).value, x.demands ++ (f a).demands, x.cuts + (f a).cuts⟩

instance : Monad Meaning where
  pure a := ⟨some a, [], 0⟩
  bind := andThen

theorem bind_of_value {x : Meaning α} {f : α → Meaning β} {a : α} (h : x.value = some a) :
    x >>= f = ⟨(f a).value, x.demands ++ (f a).demands, x.cuts + (f a).cuts⟩ := by
  show andThen x f = _
  rw [andThen, h]

theorem bind_of_none {x : Meaning α} {f : α → Meaning β} (h : x.value = none) :
    x >>= f = ⟨none, x.demands, x.cuts⟩ := by
  show andThen x f = _
  rw [andThen, h]

/-- What the first one asks for is asked for, whatever comes next. -/
theorem demands_bind_of_mem {x : Meaning α} {f : α → Meaning β} {k : KeyTerm}
    (h : k ∈ x.demands) : k ∈ (x >>= f).demands := by
  cases h_x : x.value with
  | none =>
    rw [bind_of_none h_x]
    exact h
  | some a =>
    rw [bind_of_value h_x]
    exact List.mem_append_left _ h

theorem cuts_le_bind (x : Meaning α) (f : α → Meaning β) : x.cuts ≤ (x >>= f).cuts := by
  cases h_x : x.value with
  | none => exact Nat.le_of_eq (congrArg Meaning.cuts (bind_of_none h_x)).symm
  | some a =>
    rw [bind_of_value h_x]
    exact Nat.le_add_right _ _

instance : LawfulMonad Meaning :=
  LawfulMonad.mk' Meaning
    (by
      rintro α ⟨_ | a, demands, cuts⟩
      · rfl
      · exact Meaning.ext rfl (List.append_nil _) rfl)
    (by
      intro α β a f
      exact Meaning.ext rfl rfl (Nat.zero_add _))
    (by
      rintro α β γ ⟨_ | a, demands, cuts⟩ f g
      · rfl
      · have h_first {δ : Type} (e : α → Meaning δ) :
            (⟨some a, demands, cuts⟩ : Meaning α) >>= e =
              ⟨(e a).value, demands ++ (e a).demands, cuts + (e a).cuts⟩ := rfl
        rw [h_first, h_first]
        cases h : (f a).value with
        | none =>
          rw [bind_of_none h]
          exact bind_of_none rfl
        | some b =>
          rw [bind_of_value (f := g) h]
          refine (bind_of_value rfl).trans ?_
          exact Meaning.ext rfl (List.append_assoc _ _ _) (Nat.add_assoc _ _ _))

/-- What the tables say, which asks for nothing. -/
def read (e : Except Error α) : Meaning α :=
  ⟨e.toOption, [], 0⟩

instance : MonadLift (Except Error) Meaning where
  monadLift := read

/-- No meaning. -/
def nothing : Meaning α :=
  ⟨none, [], 0⟩

/-- Asks for a key. -/
def demand (k : KeyTerm) : Meaning KeyTerm :=
  ⟨some k, [k], 0⟩

/-- Cuts one instantiation off. -/
def cut : Meaning Unit :=
  ⟨some (), [], 1⟩

/-! #### Reading -/

theorem read_ok {e : Except Error α} {a : α} (h : e = .ok a) : read e = pure a := by
  rw [h]
  rfl

theorem read_value_eq_some_iff {e : Except Error α} {a : α} :
    (read e).value = some a ↔ e = .ok a := by
  cases e with
  | ok b => exact Option.some_inj.trans (Except.ok.injEq b a).symm.to_iff
  | error error => simp [read, Except.toOption]

theorem read_bind (e : Except Error α) (f : α → Except Error β) :
    read (e >>= f) = read e >>= fun a => read (f a) := by
  cases e with
  | ok a => exact (pure_bind a fun a => read (f a)).symm
  | error error => rfl

theorem read_map (e : Except Error α) (f : α → β) : read (f <$> e) = f <$> read e := by
  cases e <;> rfl

theorem read_congr {e e' : Except Error α} (h : ∀ a, e = .ok a ↔ e' = .ok a) :
    read e = read e' := by
  cases e with
  | ok a => rw [(h a).mp rfl]
  | error error =>
    cases e' with
    | ok a => cases (h a).mpr rfl
    | error error' => rfl

theorem read_mapM (f : α → Except Error β) (as : List α) :
    read (as.mapM f) = as.mapM fun a => read (f a) := by
  induction as with
  | nil => rfl
  | cons a as ih =>
    rw [List.mapM_cons, List.mapM_cons, read_bind]
    refine bind_congr fun b => ?_
    rw [read_bind, ih]
    rfl

end Meaning

/-! ### Descriptors -/

/-- The generic arguments in scope, as terms. -/
structure TermScope where
  /-- The arguments of the parameters of a type. -/
  classArgs : List TypeTerm
  /-- The arguments of the parameters of a method. -/
  methodArgs : List TypeTerm

namespace TermScope

/-- The scope without arguments, in which every parameter is open. -/
def empty : TermScope :=
  ⟨[], []⟩

/-- The arguments that the members of a class see. -/
def ofKey (k : KeyTerm) : TermScope :=
  ⟨k.classArgs, k.methodArgs⟩

/-- The arguments of the parameters of methods or of types. -/
def args (scope : TermScope) (ofMethod : Bool) : List TypeTerm :=
  if ofMethod then scope.methodArgs else scope.classArgs

end TermScope

namespace Meaning

section Descriptors

variable (m : Metadata) (maxDepth : Nat) (scope : TermScope)

/-- A type definition stands for its chain. -/
def definition (index : Nat) : Meaning Lineage :=
  read (m.lineage index)

/-- The type of a definition. -/
def definitionType (index : Nat) : Meaning TypeTerm := do
  let _ ← definition m index
  return (KeyTerm.ofDefinition index).type

/-- The class for a key. -/
def classOf (k : KeyTerm) : Meaning KeyTerm := do
  let _ ← definition m k.definition
  demand k

/-- The argument for a generic parameter, or the parameter itself when it is open. -/
def parameter (index : Nat) (ofMethod : Bool) : Meaning TypeTerm := do
  let row ← m.genericParameter index
  match (scope.args ofMethod)[row.number]? with
  | some arg => return arg
  | none => return .parameter row.number ofMethod (← m.string row.nameIndex)

/-- The arguments in the list at an address, 0 for no list. -/
def arguments (resolve : Nat → Meaning TypeTerm) (address : Nat) : Meaning (List TypeTerm) := do
  if address = 0 then
    return []
  let inst ← m.registration.genericInstAt address
  let addresses ← inst.arguments m.registration.image
  addresses.mapM resolve

/-- The type of an instantiation: the definition itself when the arguments are its own open
parameters, the definition in its place when the nesting is too deep, or a class of its own. -/
def instantiate (k : KeyTerm) : Meaning TypeTerm := do
  let lineage ← definition m k.definition
  if k.methodArgs.isEmpty && k.classArgs = lineage.frame.openArgs then
    return (KeyTerm.ofDefinition k.definition).type
  else if maxDepth < k.depth then
    cut
    return (KeyTerm.ofDefinition k.definition).type
  else
    return (← classOf m k).type

/-- The type of the instantiation at an address. -/
def instantiation (resolve : Nat → Meaning TypeTerm) (address : Nat) : Meaning TypeTerm := do
  let generic ← m.registration.genericClassAt address
  let row ← m.instantiatedDefinition generic
  let classArgs ← arguments m resolve generic.classInst
  let methodArgs ← arguments m resolve generic.methodInst
  instantiate m maxDepth ⟨row, classArgs, methodArgs⟩

/-- What a descriptor stands for, before its by-reference flag is looked at. -/
def payload (resolve : Nat → Meaning TypeTerm) (descriptor : Descriptor) : Meaning TypeTerm := do
  if descriptor.kind = .void then
    return .void
  else
    match descriptor.payload with
    | .none => return .primitive descriptor.kind
    | .definition row => definitionType m row
    | .element address =>
      let element ← resolve address
      match descriptor.kind with
      | .ptr => return .pointer element
      | .byRef => return .byref element
      | _ => return .array element 1
    | .array address =>
      let shape ← m.registration.arrayTypeAt address
      let element ← resolve shape.element
      return .array element (max shape.rank 1)
    | .parameter index => parameter m scope index (descriptor.kind = .mVar)
    | .instantiation address => instantiation m maxDepth resolve address

/-- The type of the descriptor at an address. -/
def atAddress (resolve : Descriptor → Meaning TypeTerm) (address : Nat) : Meaning TypeTerm := do
  resolve (← m.registration.typeAt address)

/-- The type of a descriptor, following at most `levels` descriptors into each other. -/
def descriptorWithin : Nat → Descriptor → Meaning TypeTerm
  | 0, _ => nothing
  | levels + 1, descriptor => do
    let resolve := atAddress m (descriptorWithin levels)
    let type ← payload m maxDepth scope resolve descriptor
    if descriptor.byref && descriptor.kind != .byRef then
      return .byref type
    else
      return type

/-- The type of a descriptor. -/
def descriptor (d : Descriptor) : Meaning TypeTerm :=
  descriptorWithin m maxDepth scope (nestingLimit + 1) d

/-- The type of the descriptor with an index. -/
def typeIndex (index : Nat) : Meaning TypeTerm := do
  descriptor m maxDepth scope (← m.descriptor index)

/-- The type that a source names. -/
def type : TypeSource → Meaning TypeTerm
  | .index position => typeIndex m maxDepth scope position
  | .address va => do descriptor m maxDepth scope (← m.registration.typeAt va)
  | .definition row => definitionType m row

/-- The type of an instantiation that the registration tables list. -/
def listed (address : Nat) : Meaning TypeTerm :=
  instantiation m maxDepth (atAddress m (descriptorWithin m maxDepth .empty nestingLimit)) address

end Descriptors

end Meaning

/-! ### Members -/

/-- A field of a class. -/
structure FieldTerm where
  name : String
  /-- Whether the field belongs to the class and not to its instances. -/
  isStatic : Bool
  type : TypeTerm
  /-- The class that declares the field. -/
  declaring : KeyTerm
  token : Option Nat

/-- A parameter of a method. -/
structure ParameterTerm where
  name : String
  type : TypeTerm

/-- A method of a class. -/
structure MethodTerm where
  name : String
  /-- The identifier among the methods of the class. -/
  uniqueId : String
  signature : String
  /-- Whether the method has no receiver. -/
  isStatic : Bool
  /-- The type of the result. -/
  returnType : TypeTerm
  /-- The parameters, in order. -/
  parameters : List ParameterTerm
  /-- The class that declares the method. -/
  declaring : KeyTerm
  token : Nat
  /-- The address of the compiled code. -/
  address : Option Nat

/-- The members of a class. -/
structure MembersTerm where
  /-- The underlying type of an enumeration. -/
  underlying : Option TypeTerm
  /-- The nested classes, in table order. -/
  nested : List KeyTerm
  /-- The fields, by name. -/
  fields : List FieldTerm
  /-- The methods, by signature. -/
  methods : List MethodTerm

namespace Meaning

section Members

variable (m : Metadata) (maxDepth : Nat) (scope : TermScope) (owner : KeyTerm)

/-- A field of a class. -/
def field (row : FieldDefinition) : Meaning FieldTerm := do
  let name ← m.string row.nameIndex
  let some index := row.typeIndex | nothing
  let d ← m.descriptor index
  let type ← descriptor m maxDepth scope d
  return {
    name := name
    isStatic := d.isStatic
    type := type
    declaring := owner
    token := row.token }

/-- The fields of a class. -/
def fields (row : TypeDefinition) : Meaning (List FieldTerm) := do
  let rows ← Metadata.memberRows .field m.fields row.fieldStart row.fieldCount
  let fields ← rows.mapM (field m maxDepth scope owner)
  return fields.mergeSort fun a b => a.name ≤ b.name

/-- A parameter of a method. -/
def methodParameter (row : ParameterDefinition) : Meaning ParameterTerm := do
  let name ← m.string row.nameIndex
  let some index := row.typeIndex | nothing
  let type ← typeIndex m maxDepth scope index
  return { name := name, type := type }

/-- The parameters of a method. -/
def parameters (row : MethodDefinition) : Meaning (List ParameterTerm) := do
  let rows ← Metadata.memberRows .parameter m.parameters row.parameterStart row.parameterCount
  rows.mapM (methodParameter m maxDepth scope)

/-- The result of a method, given by the index of its descriptor. -/
def returnType : Option Nat → Meaning TypeTerm
  | some index => typeIndex m maxDepth scope index
  | none => return .void

/-- The written signature of a method. -/
def signature (isStatic : Bool) (returnType : TypeTerm) (name : String)
    (parameters : List ParameterTerm) : String :=
  Name.signature isStatic (m.display returnType) name
    (parameters.map fun parameter => (m.display parameter.type, parameter.name))

/-- A method of a class, not yet told apart from its overloads. -/
def method (row : MethodDefinition) : Meaning MethodTerm := do
  let name ← m.string row.nameIndex
  let returnType ← returnType m maxDepth scope row.returnType
  let parameters ← parameters m maxDepth scope row
  return {
    name := name
    uniqueId := ""
    signature := signature m row.isStatic returnType name parameters
    isStatic := row.isStatic
    returnType := returnType
    parameters := parameters
    declaring := owner
    token := row.token
    address := Resolving.methodAddress m owner.isInstantiation (m.imageOf owner.definition) row }

/-- The methods in the given order, told apart. -/
def identify (methods : List MethodTerm) : List MethodTerm :=
  let ids := Name.uniqueIds (methods.map fun method => (method.name, method.parameters.length))
  List.zipWith (fun method id => { method with uniqueId := id }) methods ids

/-- The methods of a class. -/
def methods (row : TypeDefinition) : Meaning (List MethodTerm) := do
  let rows ← Metadata.memberRows .method m.methods row.methodStart row.methodCount
  let methods ← rows.mapM (method m maxDepth scope owner)
  return identify (methods.mergeSort fun a b => a.signature ≤ b.signature)

/-- An entry among the nested types of a definition, which the definition itself has to declare. -/
def nestedClass (entry : Int) : Meaning KeyTerm := do
  let some position := toIndex? entry | nothing
  let lineage ← definition m position
  if lineage.outer?.map (·.frame.definition) = some owner.definition then
    return .ofDefinition position
  else
    nothing

/-- The nested classes of a class; an instantiation has none. -/
def nested (row : TypeDefinition) : Meaning (List KeyTerm) := do
  if owner.isInstantiation then
    return []
  let rows ←
    Metadata.memberRows .nestedType m.nestedTypes row.nestedTypesStart row.nestedTypeCount
  rows.mapM (nestedClass m owner)

/-- The underlying type of an enumeration that has one. -/
def underlying (row : TypeDefinition) : Meaning (Option TypeTerm) :=
  match row.elementTypeIndex with
  | some index => if row.isEnum then some <$> typeIndex m maxDepth scope index else return none
  | none => return none

/-- **Members.** What the members of the class for a key stand for. -/
def members : Meaning MembersTerm := do
  let row ← m.typeDefinition owner.definition
  let scope := TermScope.ofKey owner
  let underlying ← underlying m maxDepth scope row
  let fields ← fields m maxDepth scope owner row
  let methods ← methods m maxDepth scope owner row
  let nested ← nested m owner row
  return ⟨underlying, nested, fields, methods⟩

end Members

end Meaning

end GlobalMetadata
