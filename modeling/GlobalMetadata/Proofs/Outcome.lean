import GlobalMetadata.Proofs.Reachable
import Mathlib.Algebra.BigOperators.Finprod

/-!
# The outcome of a run

Two runs that create the same classes in different orders give them different ids. What they have in
common is seen once every id is replaced by what it stands for. `Resolver.outcome` is what is left
then: the classes with all that they show, the places where resolution has failed, and the number of
instantiations that were cut off.

`Metadata.outcome` says what there is to resolve without any run. A key is reached if it is a
definition with a chain, or listed, or asked for by the members of a key that is reached
(`Metadata.Reaches`), and everything else is read off the meaning of those keys.
-/

namespace GlobalMetadata

/-- A class with every id in it replaced by what the id stands for. -/
structure ClassTerm where
  /-- What the class is. -/
  key : KeyTerm
  /-- The managed module that declares the definition. -/
  image : Option Nat
  /-- The namespace of the outermost declaring type. -/
  namespaceName : String
  name : String
  /-- The path of identifiers from the namespace to the name. -/
  qualifiedName : String
  /-- The class around this one. -/
  declaring : Option KeyTerm
  /-- The generic arguments, or the open parameters of a generic definition. -/
  genericArgs : List TypeTerm
  /-- The attribute flags that have a meaning. -/
  flags : Nat
  isValueType : Bool
  isEnum : Bool
  /-- The metadata token of the definition. -/
  token : Option Nat
  /-- How deeply generic arguments nest. -/
  depth : Nat
  /-- The members, if they are resolved. -/
  members : Option MembersTerm

/-- What comes of resolution, without any ids. -/
@[ext]
structure Outcome where
  /-- The classes; one that stands for nothing would be `none`. -/
  classes : Set (Option ClassTerm)
  /-- The definitions whose class could not be created. -/
  uncreated : Set Nat
  /-- The classes whose members could not be resolved. -/
  uncompleted : Set (Option KeyTerm)
  /-- The positions of the listed instantiations that could not be resolved. -/
  unlisted : Set Nat
  /-- How many instantiations were cut off. -/
  truncated : Nat

/-! ### Reading an arena -/

namespace Arena

section Reading

variable (arena : Arena)

/-- The term of a key. -/
def keyTerm? (key : ClassKey) : Option KeyTerm := do
  return ⟨key.definition, ← key.classArgs.mapM arena.term?, ← key.methodArgs.mapM arena.term?⟩

/-- The key of a class, as a term. -/
def keyOf? (id : ClassId) : Option KeyTerm := do
  arena.keyTerm? (← arena.class? id).key

/-- A field as a term. -/
def fieldTerm? (f : ResolvedField) : Option FieldTerm := do
  return ⟨f.name, f.isStatic, ← arena.term? f.type, ← arena.keyOf? f.declaring, f.token⟩

/-- A parameter of a method as a term. -/
def parameterTerm? (p : ResolvedParameter) : Option ParameterTerm := do
  return ⟨p.name, ← arena.term? p.type⟩

/-- A method as a term. -/
def methodTerm? (f : ResolvedMethod) : Option MethodTerm := do
  return {
    name := f.name
    uniqueId := f.uniqueId
    signature := f.signature
    isStatic := f.isStatic
    returnType := ← arena.term? f.returnType
    parameters := ← f.parameters.mapM arena.parameterTerm?
    declaring := ← arena.keyOf? f.declaring
    token := f.token
    address := f.address }

/-- The members of a class as terms. -/
def membersTerm? (members : Members) : Option MembersTerm := do
  return {
    underlying := ← members.underlying.mapM arena.term?
    nested := ← members.nested.mapM arena.keyOf?
    fields := ← members.fields.mapM arena.fieldTerm?
    methods := ← members.methods.mapM arena.methodTerm? }

/-- A class as a term. -/
def classTerm? (c : ResolvedClass) : Option ClassTerm := do
  return {
    key := ← arena.keyTerm? c.key
    image := c.image
    namespaceName := c.namespaceName
    name := c.name
    qualifiedName := c.qualifiedName
    declaring := ← c.declaring.mapM arena.keyOf?
    genericArgs := ← c.genericArgs.mapM arena.term?
    flags := c.flags
    isValueType := c.isValueType
    isEnum := c.isEnum
    token := c.token
    depth := c.depth
    members := ← c.members.mapM arena.membersTerm? }

end Reading

/-! ### What stands for something is read -/

section Read

/-- Lists that agree entry by entry are read entry by entry. -/
theorem mapM_of_forall₂ {α β : Type} {R : α → β → Prop} {spell : β → Option α}
    (h_spell : ∀ a b, R a b → spell b = some a) {as : List α} {bs : List β}
    (h : List.Forall₂ R as bs) : bs.mapM spell = some as := by
  induction h with
  | nil => rfl
  | cons h_ab _ ih =>
    rw [List.mapM_cons, h_spell _ _ h_ab, ih]
    rfl

theorem optionMapM_of_rel {α β : Type} {R : α → β → Prop} {spell : β → Option α}
    (h_spell : ∀ a b, R a b → spell b = some a) {a : Option α} {b : Option β}
    (h : Option.Rel R a b) : b.mapM spell = some a := by
  cases h with
  | none => rfl
  | some h_ab =>
    rw [Option.mapM_some, h_spell _ _ h_ab]
    rfl

variable {m : Metadata} {arena : Arena} (h : arena.Sound m)

include h

theorem Sound.keyTerm?_eq {k : KeyTerm} {key : ClassKey} (h_k : arena.UnfoldsKey k key) :
    arena.keyTerm? key = some k := by
  rw [keyTerm?, h.mapM_term?_eq h_k.2.1, h.mapM_term?_eq h_k.2.2, h_k.1]
  rfl

theorem Sound.keyOf?_eq {k : KeyTerm} {id : ClassId} (h_k : arena.UnfoldsClass k id) :
    arena.keyOf? id = some k := by
  obtain ⟨c, h_c, h_key⟩ := h_k
  rw [keyOf?, h_c]
  exact h.keyTerm?_eq h_key

theorem Sound.fieldTerm?_eq {t : FieldTerm} {f : ResolvedField} (h_f : arena.ReadsField t f) :
    arena.fieldTerm? f = some t := by
  rw [fieldTerm?, h.term?_eq h_f.type, h.keyOf?_eq h_f.declaring, h_f.name, h_f.isStatic, h_f.token]
  rfl

theorem Sound.parameterTerm?_eq {t : ParameterTerm} {p : ResolvedParameter}
    (h_p : arena.ReadsParameter t p) : arena.parameterTerm? p = some t := by
  rw [parameterTerm?, h.term?_eq h_p.type, h_p.name]
  rfl

theorem Sound.methodTerm?_eq {t : MethodTerm} {f : ResolvedMethod} (h_f : arena.ReadsMethod t f) :
    arena.methodTerm? f = some t := by
  have h_parameters : f.parameters.mapM arena.parameterTerm? = some t.parameters :=
    mapM_of_forall₂ (fun _ _ h_p => h.parameterTerm?_eq h_p) h_f.parameters
  rw [methodTerm?, h.term?_eq h_f.returnType, h_parameters, h.keyOf?_eq h_f.declaring, h_f.name,
    h_f.uniqueId, h_f.signature, h_f.isStatic, h_f.token, h_f.address]
  rfl

/-- Members are read as the members they stand for. -/
theorem Sound.membersTerm?_eq {t : MembersTerm} {members : Members}
    (h_members : arena.ReadsMembers t members) : arena.membersTerm? members = some t := by
  have h_underlying : members.underlying.mapM arena.term? = some t.underlying :=
    optionMapM_of_rel (fun _ _ h_t => h.term?_eq h_t) h_members.underlying
  have h_nested : members.nested.mapM arena.keyOf? = some t.nested :=
    mapM_of_forall₂ (fun _ _ h_k => h.keyOf?_eq h_k) h_members.nested
  have h_fields : members.fields.mapM arena.fieldTerm? = some t.fields :=
    mapM_of_forall₂ (fun _ _ h_f => h.fieldTerm?_eq h_f) h_members.fields
  have h_methods : members.methods.mapM arena.methodTerm? = some t.methods :=
    mapM_of_forall₂ (fun _ _ h_f => h.methodTerm?_eq h_f) h_members.methods
  rw [membersTerm?, h_underlying, h_nested, h_fields, h_methods]
  rfl

end Read

end Arena

/-! ### What there is to resolve -/

namespace Metadata

variable (m : Metadata) (config : Config)

/-- What a listed instantiation stands for. -/
def listedMeaning (entry : Nat × Nat) : Meaning TypeTerm :=
  Meaning.listed m config.maxGenericDepth entry.1

/-- What the members of the class for a key stand for. -/
def membersMeaning (k : KeyTerm) : Meaning MembersTerm :=
  Meaning.members m config.maxGenericDepth k

/-- The keys of the classes that a run comes to. -/
inductive Reaches : KeyTerm → Prop
  /-- The key of a definition. -/
  | definition {definition : Nat} {lineage : Lineage} (traces : m.Traces definition lineage) :
      Reaches (.ofDefinition definition)
  /-- A key that a listed instantiation asks for. -/
  | listed {entry : Nat × Nat} {k : KeyTerm} (visited : entry ∈ m.listings config)
      (asked : k ∈ (m.listedMeaning config entry).demands) : Reaches k
  /-- A key that the members of a class ask for. -/
  | member {owner k : KeyTerm} (reached : Reaches owner)
      (asked : k ∈ (m.membersMeaning config owner).demands) : Reaches k

/-- What a class shows whose definition has a given chain. -/
def classTerm (k : KeyTerm) (lineage : Lineage) : ClassTerm where
  key := k
  image := m.imageOf k.definition
  namespaceName := lineage.namespaceName
  name := lineage.frame.name
  qualifiedName := lineage.qualifiedName
  declaring := lineage.outer?.map fun outer => .ofDefinition outer.frame.definition
  genericArgs := if k.isInstantiation then k.classArgs else lineage.frame.openArgs
  flags := lineage.frame.row.attributes
  isValueType := lineage.frame.row.isValueType
  isEnum := lineage.frame.row.isEnum
  token := lineage.frame.row.token
  depth := k.depth
  members := (m.membersMeaning config k).value

/-- **What a run should come to.** -/
noncomputable def outcome : Outcome where
  classes := {o | ∃ k lineage, m.Reaches config k ∧ m.Traces k.definition lineage ∧
    o = some (m.classTerm config k lineage)}
  uncreated := {d | d < m.typeDefinitions.size ∧ ∀ lineage, ¬ m.Traces d lineage}
  uncompleted := {o | ∃ k, m.Reaches config k ∧ (m.membersMeaning config k).value = none ∧
    o = some k}
  unlisted := {i | ∃ entry ∈ m.listings config, (m.listedMeaning config entry).value = none ∧
    i = entry.2}
  truncated := ((m.listings config).map fun entry => (m.listedMeaning config entry).cuts).sum +
    ∑ᶠ k ∈ {k | m.Reaches config k}, (m.membersMeaning config k).cuts

end Metadata

/-- **What a resolver has come to.** -/
def Resolver.outcome (resolver : Resolver) : Outcome where
  classes := {o | ∃ id c, resolver.arena.class? id = some c ∧ o = resolver.arena.classTerm? c}
  uncreated := {d | (FailureSite.creation d).code ∈ resolver.failures}
  uncompleted := {o | ∃ definition index,
    (FailureSite.completion definition index).code ∈ resolver.failures ∧
      o = resolver.arena.keyOf? ⟨index⟩}
  unlisted := {i | (FailureSite.listed i).code ∈ resolver.failures}
  truncated := resolver.arena.truncated

/-! ### Classes as terms -/

namespace Arena

variable {m : Metadata} {arena : Arena} {config : Config}

/-- The class around a class is that of the definition around. -/
theorem Encloses.keyOf?_eq (h : arena.Sound m) {outer : Option Lineage}
    {declaring : Option ClassId} (h_encloses : arena.Encloses outer declaring) :
    declaring.mapM arena.keyOf? =
      some (outer.map fun outer => .ofDefinition outer.frame.definition) := by
  cases h_encloses with
  | top => rfl
  | @nested outer id h_found =>
    obtain ⟨c, h_c, h_key⟩ := find?_eq_some_iff.mp h_found
    have h_class : arena.UnfoldsClass (.ofDefinition outer.frame.definition) id :=
      ⟨c, h_c, h_key ▸ unfoldsKey_ofDefinition.mpr rfl⟩
    rw [Option.mapM_some, h.keyOf?_eq h_class]
    rfl

/-- **A class stands for what its definition says**, as soon as its members do. -/
theorem Shows.classTerm?_eq (h : arena.Sound m) {lineage : Lineage} {k : KeyTerm}
    {c : ResolvedClass} (h_shows : arena.Shows m lineage k c)
    (h_members : Option.Rel arena.ReadsMembers (m.membersMeaning config k).value c.members) :
    arena.classTerm? c = some (m.classTerm config k lineage) := by
  have h_published : c.members.mapM arena.membersTerm? = some (m.membersMeaning config k).value :=
    optionMapM_of_rel (fun _ _ h_t => h.membersTerm?_eq h_t) h_members
  rw [classTerm?, h.keyTerm?_eq h_shows.key, h_shows.declaring.keyOf?_eq h,
    h.mapM_term?_eq h_shows.genericArgs, h_published, h_shows.image, h_shows.namespaceName,
    h_shows.name, h_shows.qualifiedName, h_shows.flags, h_shows.isValueType, h_shows.isEnum,
    h_shows.token, h_shows.depth]
  rfl

end Arena

end GlobalMetadata
