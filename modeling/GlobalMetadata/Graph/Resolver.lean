import GlobalMetadata.Config
import GlobalMetadata.Graph.Completion
import GlobalMetadata.Graph.Report

/-!
# Resolution

A run creates the class of every type definition, then, if the configuration asks for it, every
instantiation that the registration tables list, and then completes all classes in the order in
which they were created. Completing a class may create further ones; they are completed in a
following round, until a round creates none.

Nothing counts the rounds. It is the limit on generic depth that keeps their number finite: with it
only finitely many classes can ever be asked for.
-/

namespace GlobalMetadata

/-- What resolution has created and what it failed at. -/
structure Resolver where
  /-- The types and classes. -/
  arena : Arena
  failures : FailureLog

namespace Resolver

/-- The resolver before anything is resolved. -/
def empty : Resolver :=
  ⟨.empty, ∅⟩

/-- Takes a step of resolution. -/
def perform {α : Type} (resolver : Resolver) (step : Resolving α) : Except Error α × Resolver :=
  let ⟨arena, failures⟩ := resolver
  let (result, arena) := step.run arena
  (result, ⟨arena, failures⟩)

/-- Takes a step of resolution and writes its failure down; `describe` tells the failure by the
arena after the step. -/
def attempt {α : Type} (resolver : Resolver) (step : Resolving α) (site : FailureSite)
    (describe : Arena → Option Nat × String) : Resolver :=
  match resolver.perform step with
  | (.ok _, resolver) => resolver
  | (.error error, resolver) =>
    let (definition, subject) := describe resolver.arena
    { resolver with failures := resolver.failures.record site ⟨definition, subject, error⟩ }

/-- Creates the class of a type definition. -/
def seed (m : Metadata) (resolver : Resolver) (definition : Nat) : Resolver :=
  resolver.attempt (Resolving.definition m definition) (.creation definition) fun _ =>
    (some definition, s!"type definition {definition}")

/-- Resolves an instantiation that the registration tables list, given with its position. -/
def seedListed (m : Metadata) (maxDepth : Nat) (resolver : Resolver) (entry : Nat × Nat) :
    Resolver :=
  let (address, position) := entry
  resolver.attempt (Resolving.listed m maxDepth address) (.listed position) fun _ =>
    (none, s!"generic class 0x{Numeral.hex address}")

/-- Completes the class with an id. -/
def completeClass (m : Metadata) (maxDepth : Nat) (resolver : Resolver) (index : Nat) : Resolver :=
  let definition := (resolver.arena.class? ⟨index⟩).elim 0 (·.definition)
  resolver.attempt (Resolving.complete m maxDepth ⟨index⟩) (.completion definition index)
    fun arena => (some definition, arena.classFullDisplay ⟨index⟩)

/-- One round: completes the classes from `first` up to, but without, `last`. -/
def completeRange (m : Metadata) (maxDepth first last : Nat) (resolver : Resolver) : Resolver :=
  (List.range' first (last - first)).foldl (completeClass m maxDepth) resolver

section Rounds

variable (m : Metadata) (maxDepth : Nat)

/-- Completes all classes from `done` on, round by round, until a round creates none. There is no
result when every round creates some. -/
def completeFrom? (done : Nat) (resolver : Resolver) : Option Resolver :=
  let last := resolver.arena.classes.size
  if last ≤ done then some resolver
  else by
    -- a plain call would make its place in the text a part of the definition
    apply completeFrom?
    · exact last
    · exact completeRange m maxDepth done last resolver
partial_fixpoint

end Rounds

/-- Creates the class of every type definition. -/
def seedDefinitions (m : Metadata) (resolver : Resolver) : Resolver :=
  (List.range m.typeDefinitions.size).foldl (seed m) resolver

/-- Resolves every instantiation that the registration tables list, if that is asked for. -/
def seedListings (m : Metadata) (config : Config) (resolver : Resolver) : Resolver :=
  if config.materialize then
    m.registration.genericClasses.toList.zipIdx.foldl (seedListed m config.maxGenericDepth) resolver
  else resolver

/-- Everything of a run but the completion of classes. -/
def start (m : Metadata) (config : Config) (resolver : Resolver) : Resolver :=
  seedListings m config (seedDefinitions m resolver)

/-- **A run.** Resolves every type definition and the members of every class reached. -/
def run (m : Metadata) (config : Config) (resolver : Resolver) : Resolver :=
  (completeFrom? m config.maxGenericDepth 0 (resolver.start m config)).getD resolver

/-! ### Single requests -/

/-- The class for a key. -/
def classOf (m : Metadata) (resolver : Resolver) (key : ClassKey) :
    Except Error ClassId × Resolver :=
  resolver.perform (Resolving.classOf m key)

/-- The type that a source names, in a scope. -/
def type (m : Metadata) (config : Config) (resolver : Resolver) (source : TypeSource)
    (scope : GenericScope) : Except Error TypeId × Resolver :=
  resolver.perform (Resolving.type m config.maxGenericDepth scope source)

/-- The id of a type that the caller made. -/
def intern (resolver : Resolver) (type : ResolvedType) : TypeId × Resolver :=
  let (id, arena) := resolver.arena.intern type
  (id, { resolver with arena := arena })

end Resolver

end GlobalMetadata
