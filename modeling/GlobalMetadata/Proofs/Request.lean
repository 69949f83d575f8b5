import GlobalMetadata.Proofs.Order

/-!
# Requests and histories

A resolver is driven from outside: a caller asks for the class of a key or for the type that a
source names, makes types of its own, and lets the resolver run, in any order and any number of
times. A `Request` is one such call. What a run does besides is up to the run: an `Event` is a
request or a single visit, a history is a list of events, and a run in any order is a history of
visits (`Resolver.RunsFrom.exists_replay`).

Nothing is asked of the ids that a request carries. `Request.Known` singles out the requests whose
ids were handed out before, which is what a caller that does not forge ids can send, and
`Resolver.Reachable` the states that such callers see, whatever order their runs are taken in.
-/

namespace GlobalMetadata

/-- One call on a resolver. -/
inductive Request
  /-- Asks for the class of a key. -/
  | class (key : ClassKey)
  /-- Asks for the type that a source names, in a scope. -/
  | type (source : TypeSource) (scope : GenericScope)
  /-- Makes a type. -/
  | intern (type : ResolvedType)
  /-- Resolves everything. -/
  | run
  deriving DecidableEq, Repr

/-- What changes a resolver: a request, or one visit of a run. -/
inductive Event
  /-- A request of the caller. -/
  | request (request : Request)
  /-- A visit, at any moment. -/
  | visit (visit : Visit)

namespace Resolver

variable (m : Metadata) (config : Config)

/-- The resolver after a request, whether it was granted or not. -/
def serve (resolver : Resolver) : Request → Resolver
  | .class key => (resolver.classOf m key).2
  | .type source scope => (resolver.type m config source scope).2
  | .intern type => (resolver.intern type).2
  | .run => resolver.run m config

/-- The resolver after an event. -/
def handle (resolver : Resolver) : Event → Resolver
  | .request request => resolver.serve m config request
  | .visit v => resolver.make m config v

/-- The resolver after a history. -/
def replay (resolver : Resolver) (history : List Event) : Resolver :=
  history.foldl (handle m config) resolver

theorem le_serve (resolver : Resolver) (request : Request) :
    resolver.arena ≤ (resolver.serve m config request).arena := by
  cases request with
  | «class» key => exact Resolving.grows_classOf m key resolver.arena
  | type source scope => exact Resolving.grows_type m config.maxGenericDepth scope source _
  | intern type => exact resolver.arena.le_intern type
  | run => exact le_run m config resolver

theorem le_handle (resolver : Resolver) (event : Event) :
    resolver.arena ≤ (resolver.handle m config event).arena := by
  cases event with
  | request request => exact le_serve m config resolver request
  | visit v => exact le_make m config resolver v

/-- **Growth over a history.** Whatever a resolver is asked for, it keeps what it has. -/
theorem le_replay (resolver : Resolver) (history : List Event) :
    resolver.arena ≤ (resolver.replay m config history).arena :=
  le_foldl (le_handle m config) history resolver

/-- **Runs are histories**, whatever their order. -/
theorem RunsFrom.exists_replay {m : Metadata} {config : Config} {resolver final : Resolver}
    (h : RunsFrom m config resolver final) :
    ∃ visits : List Visit, final = resolver.replay m config (visits.map .visit) := by
  obtain ⟨visits, rfl⟩ := h.exists_visits
  refine ⟨visits, ?_⟩
  rw [replay, List.foldl_map]
  rfl

end Resolver

/-! ### Requests without forged ids -/

namespace Arena

/-- A type with this id exists. -/
def HasType (arena : Arena) (id : TypeId) : Prop :=
  id.index < arena.types.size

/-- A class with this id exists. -/
def HasClass (arena : Arena) (id : ClassId) : Prop :=
  id.index < arena.classes.size

/-- Everything that a type refers to exists. -/
def HasParts (arena : Arena) : ResolvedType → Prop
  | .class id => arena.HasClass id
  | .array element _ | .pointer element | .byref element => arena.HasType element
  | .void | .primitive _ | .parameter .. => True

/-- All arguments of a scope exist. -/
def HasScope (arena : Arena) (scope : GenericScope) : Prop :=
  (∀ id ∈ scope.classArgs, arena.HasType id) ∧ ∀ id ∈ scope.methodArgs, arena.HasType id

end Arena

/-- A request that carries only ids which the arena has handed out. -/
def Request.Known (arena : Arena) : Request → Prop
  | .class key => arena.HasScope (.ofKey key)
  | .type _ scope => arena.HasScope scope
  | .intern made => arena.HasParts made
  | .run => True

/-- A state that a caller can bring a new resolver to without forging ids. A run may be taken in any
order. -/
inductive Resolver.Reachable (m : Metadata) (config : Config) : Resolver → Prop
  /-- A new resolver. -/
  | empty : Reachable m config .empty
  /-- One request later. -/
  | serve {resolver : Resolver} (request : Request) (before : Reachable m config resolver)
      (known : request.Known resolver.arena) :
      Reachable m config (resolver.serve m config request)
  /-- One run later, in any order. -/
  | run {resolver final : Resolver} (before : Reachable m config resolver)
      (runs : resolver.RunsFrom m config final) : Reachable m config final

end GlobalMetadata
