import GlobalMetadata.Graph.Resolver

/-!
# The type graph

What a finished resolution leaves behind: all types and classes, the modules with their top-level
classes, and the report. Classes that could not be completed are still found by their id, but in no
listing.
-/

namespace GlobalMetadata

/-- A managed module with its resolved top-level classes. -/
structure ImageEntry where
  /-- The name of the module, empty when it cannot be read. -/
  name : String
  /-- The classes, in definition order. -/
  types : List ClassId
  deriving DecidableEq, Repr

/-- The type graph of some metadata. -/
structure TypeGraph where
  /-- The types and classes. -/
  arena : Arena
  images : List ImageEntry
  /-- The failures and counts. -/
  report : Report

namespace Resolver

/-- The class of a type definition, if it is resolved and no other class is around it. -/
def topLevel? (resolver : Resolver) (definition : Nat) : Option ClassId := do
  let id ← resolver.arena.find? (.ofDefinition definition)
  let c ← resolver.arena.class? id
  if c.isResolved && c.declaring.isNone then some id else none

/-- A managed module with its resolved top-level classes. -/
def imageEntry (m : Metadata) (resolver : Resolver) (index : Nat) (row : ImageDefinition) :
    ImageEntry :=
  { name := (m.imageName index).getD ""
    types := (m.definitionsOf row).filterMap resolver.topLevel? }

/-- The report of everything that was resolved so far. -/
def report (resolver : Resolver) : Report :=
  let resolved := resolver.arena.classes.toList.filter (·.isResolved)
  { failures := resolver.failures.values
    classes := resolved.length
    instantiations := (resolved.filter (·.isInstantiation)).length
    truncated := resolver.arena.truncated }

/-- The graph of everything that was resolved so far. -/
def toGraph (m : Metadata) (resolver : Resolver) : TypeGraph :=
  { arena := resolver.arena
    images := m.images.toList.zipIdx.map fun (row, index) => resolver.imageEntry m index row
    report := resolver.report }

end Resolver

namespace TypeGraph

/-- **The graph of some metadata.** Resolves every type definition and reports what it leaves
out. -/
def build (m : Metadata) (config : Config) : TypeGraph :=
  (Resolver.empty.run m config).toGraph m

/-- The class with an id, resolved or not. -/
def class? (graph : TypeGraph) (id : ClassId) : Option ResolvedClass :=
  graph.arena.class? id

/-- The type with an id. -/
def type? (graph : TypeGraph) (id : TypeId) : Option ResolvedType :=
  graph.arena.type? id

/-- The resolved classes with their ids, in the order of creation. -/
def classes (graph : TypeGraph) : List (ClassId × ResolvedClass) :=
  (graph.arena.classes.toList.zipIdx.map fun (c, index) => (⟨index⟩, c)).filter (·.2.isResolved)

/-- The class that was created for a key. -/
def lookup (graph : TypeGraph) (key : ClassKey) : Option ClassId :=
  graph.arena.find? key

/-- The first resolved class of a type definition with a given path. -/
def find? (graph : TypeGraph) (qualifiedName : String) : Option ClassId :=
  (graph.classes.find? fun (_, c) =>
    !c.isInstantiation && c.qualifiedName = qualifiedName).map (·.1)

/-- The resolved instantiations of a type definition. -/
def instantiationsOf (graph : TypeGraph) (definition : Nat) : List ClassId :=
  (graph.classes.filter fun (_, c) =>
    c.isInstantiation && c.definition = definition).map (·.1)

end TypeGraph

end GlobalMetadata
