import GlobalMetadata.Proofs.Nest
import GlobalMetadata.Proofs.Reachable
import GlobalMetadata.Proofs.Universe

/-!
# Resolution terminates

Classes are completed in rounds, until a round creates none, and nothing counts the rounds. What
ends them is that all keys come from a finite universe: the keys that were there when the rounds
started, and those that can be built from the arguments in them and are not too deep. Every round
but the last one creates a class, no two classes have the same key, and so there are no more rounds
than keys.

* `Arena.possibleKeys` is the universe, and `Arena.Confined` the invariant: an arena holds no key
  outside it;
* `Arena.Confined.complete` is the step, and `Arena.Confined.size_le` the bound that follows;
* `Resolver.exists_last_round` is the induction on how many classes there is room for. It does not
  matter in which order a round completes its classes (`Resolver.RoundOrder`), since every visit
  stays in the universe.
-/

namespace GlobalMetadata

namespace Arena

/-- The terms that the ids of an arena stand for. -/
def terms (arena : Arena) : Set TypeTerm :=
  {t | ∃ id, arena.Unfolds t id}

/-- The keys that completion can meet when it starts from an arena. -/
def possibleKeys (m : Metadata) (maxDepth : Nat) (start : Arena) : Set KeyTerm :=
  {k | start.Holds k} ∪ {k | m.BuildsKey start.terms k ∧ k.depth ≤ maxDepth}

/-- An arena that completion can lead to from a given one. -/
structure Confined (m : Metadata) (maxDepth : Nat) (start arena : Arena) : Prop where
  sound : arena.Sound m
  /-- Every key is in the universe. -/
  keys : ∀ k, arena.Holds k → k ∈ possibleKeys m maxDepth start

/-! ### The universe is finite -/

section Finite

variable {m : Metadata} {arena start : Arena} {maxDepth : Nat}

/-- What numbers up to a bound stand for, one thing each at most. -/
theorem finite_of_unique {α : Type} {R : Nat → α → Prop}
    (h_unique : ∀ i a b, R i a → R i b → a = b) (n : Nat) : {a | ∃ i < n, R i a}.Finite := by
  -- a finite union of sets with one element at most
  have h_union : {a | ∃ i < n, R i a} = ⋃ i ∈ {i | i < n}, {a | R i a} := by
    ext a
    simp
  rw [h_union]
  exact (Set.finite_lt_nat n).biUnion fun i _ =>
    Set.Subsingleton.finite fun a h_a b h_b => h_unique i a b h_a h_b

theorem finite_terms (arena : Arena) : arena.terms.Finite := by
  refine (finite_of_unique (R := fun i t => arena.Unfolds t ⟨i⟩)
    (fun _ _ _ h h' => h.unique h') arena.types.size).subset ?_
  rintro t ⟨id, h_t⟩
  exact ⟨id.index, h_t.hasType, h_t⟩

theorem finite_holds (arena : Arena) : {k | arena.Holds k}.Finite := by
  refine (finite_of_unique
    (R := fun i k => ∃ c, arena.class? ⟨i⟩ = some c ∧ arena.UnfoldsKey k c.key)
    (fun i k l => ?_) arena.classes.size).subset ?_
  · rintro ⟨c, h_c, h_k⟩ ⟨c', h_c', h_l⟩
    rw [h_c] at h_c'
    cases h_c'
    exact h_k.unique h_l
  · rintro k ⟨id, c, h_c, h_k⟩
    exact ⟨id.index, hasClass_iff.mpr ⟨c, h_c⟩, c, h_c, h_k⟩

theorem finite_possibleKeys (m : Metadata) (maxDepth : Nat) (start : Arena) :
    (possibleKeys m maxDepth start).Finite :=
  (finite_holds start).union (Metadata.finite_buildsKey (finite_terms start) maxDepth)

/-- **No more classes than keys.** -/
theorem Confined.size_le (h : Confined m maxDepth start arena) :
    arena.classes.size ≤ (finite_possibleKeys m maxDepth start).toFinset.card := by
  -- every class has a key
  have h_key (i : Nat) (h_i : i < arena.classes.size) :
      ∃ k c, arena.class? ⟨i⟩ = some c ∧ arena.UnfoldsKey k c.key := by
    obtain ⟨c, h_c⟩ := hasClass_iff.mp (show arena.HasClass ⟨i⟩ from h_i)
    obtain ⟨lineage, k, -, h_shows⟩ := h.sound.classes ⟨i⟩ c h_c
    exact ⟨k, c, h_c, h_shows.key⟩
  have : Nonempty KeyTerm := ⟨.ofDefinition 0⟩
  choose! key h_key using h_key
  -- no two have the same, and all of them are in the universe
  have h_card := Finset.card_le_card_of_injOn key (s := Finset.range arena.classes.size)
    (t := (finite_possibleKeys m maxDepth start).toFinset) ?_ ?_
  · rwa [Finset.card_range] at h_card
  · intro i h_i
    obtain ⟨c, h_c, h_k⟩ := h_key i (Finset.mem_range.mp h_i)
    exact (finite_possibleKeys m maxDepth start).mem_toFinset.mpr (h.keys _ ⟨⟨i⟩, c, h_c, h_k⟩)
  · intro i h_i j h_j h_same
    obtain ⟨c, h_c, h_k⟩ := h_key i (Finset.mem_range.mp h_i)
    obtain ⟨c', h_c', h_k'⟩ := h_key j (Finset.mem_range.mp h_j)
    rw [← h_same] at h_k'
    exact congrArg ClassId.index (eq_of_key h_c h_c' (h_k.inj h_k'))

end Finite

/-! ### Completion stays in the universe -/

section Step

variable {m : Metadata} {arena start : Arena} {maxDepth : Nat}

/-- At the start nothing is outside. -/
theorem Sound.confined (h : arena.Sound m) : Confined m maxDepth arena arena :=
  ⟨h, fun _ h_k => .inl h_k⟩

/-- Publishing members adds no key. -/
theorem holds_of_publish (h : arena.Sound m) {owner : ClassId} {members : Members} {k : KeyTerm}
    (h_k : (arena.publish owner members).Holds k) : arena.Holds k := by
  obtain ⟨id, c', h_c', h_key⟩ := h_k
  -- the class was there before, under the same key
  have h_has : arena.HasClass id := by
    have h_has : (arena.publish owner members).HasClass id := hasClass_iff.mpr ⟨c', h_c'⟩
    rwa [HasClass, size_publish] at h_has
  obtain ⟨c, h_c⟩ := hasClass_iff.mp h_has
  have h_le := arena.le_publish owner members
  obtain ⟨c'', h_c'', h_grows⟩ := class?_mono h_le h_c
  obtain rfl := Option.some.inj (h_c'.symm.trans h_c'')
  rw [h_grows.key_eq] at h_key
  exact ⟨id, c, h_c, h.unfoldsKey_of_le h_c h_le h_key⟩

/-- The arguments of a key in the universe can be built. -/
theorem builtScope_of_mem {k : KeyTerm} (h_k : k ∈ possibleKeys m maxDepth start) :
    Meaning.BuiltScope m start.terms (.ofKey k) := by
  -- what an id stands for at the start counts as given
  have h_given {ts : List TypeTerm} {ids : List TypeId} (h_ts : start.UnfoldsAll ts ids) :
      ∀ t ∈ ts, m.Builds start.terms t := by
    intro t h_t
    obtain ⟨id, -, h_id⟩ := h_ts.exists_id h_t
    exact .base ⟨id, h_id⟩
  rcases h_k with ⟨id, c, h_c, h_key⟩ | ⟨h_built, -⟩
  · exact ⟨h_given h_key.2.1, h_given h_key.2.2⟩
  · exact ⟨h_built.classArgs, h_built.methodArgs⟩

/-- **Completing a class** stays in the universe. -/
theorem Confined.complete (h : Confined m maxDepth start arena) (id : ClassId) :
    Confined m maxDepth start (Resolving.after (Resolving.complete m maxDepth id) arena) := by
  refine ⟨Resolving.sound_complete maxDepth h.sound id, fun k h_k => ?_⟩
  cases h_c : arena.class? id with
  | none =>
    rw [(Resolving.complete_of_none maxDepth h_c).2] at h_k
    exact h.keys k h_k
  | some c =>
    obtain ⟨lineage, owner, -, h_shows⟩ := h.sound.classes id c h_c
    have h_members := Resolving.members_follows maxDepth h.sound h_c h_shows.key
    -- the keys afterwards are those after resolving the members
    have h_held : (Resolving.after (Resolving.members m maxDepth id c) arena).Holds k := by
      rw [(Resolving.complete_of_some maxDepth h_c).2] at h_k
      split at h_k
      · exact holds_of_publish h_members.sound h_k
      · exact h_k
    rcases h_members.demanded k h_held with h_old | h_plain | h_demand
    · exact h.keys k h_old
    · -- a definition is in the table, and not deep
      obtain ⟨id', c', h_c', h_key'⟩ := h_held
      obtain ⟨lineage', h_traces', -⟩ := h_members.sound.shows_of_key h_c' h_key'
      refine .inr ⟨?_, ?_⟩
      · rw [KeyTerm.eq_ofDefinition h_plain]
        exact Metadata.buildsKey_ofDefinition h_traces'.lt_size
      · rw [KeyTerm.depth_eq_zero h_plain]
        exact Nat.zero_le maxDepth
    · -- an instantiation is asked for by the members
      have h_owner := builtScope_of_mem (h.keys owner ⟨id, c, h_c, h_shows.key⟩)
      exact .inr ((Meaning.members_stays maxDepth owner h_owner).demands k h_demand)

end Step

end Arena

/-! ### Rounds -/

namespace Resolver

variable {m : Metadata} {config : Config} {maxDepth : Nat}

/-- One round, with the number of classes that were there before it: completes the classes that the
round before has created. -/
def round (m : Metadata) (maxDepth : Nat) (state : Nat × Resolver) : Nat × Resolver :=
  let last := state.2.arena.classes.size
  (last, completeRange m maxDepth state.1 last state.2)

/-- In which order each round completes its classes. The choice may look at the whole state. -/
structure RoundOrder where
  /-- The classes from `done` on, in some order. -/
  classes (done : Nat) (resolver : Resolver) : List Nat
  perm (done : Nat) (resolver : Resolver) :
    (classes done resolver).Perm (List.range' done (resolver.arena.classes.size - done))

namespace RoundOrder

/-- The oldest class first. -/
def ascending : RoundOrder where
  classes done resolver := List.range' done (resolver.arena.classes.size - done)
  perm _ _ := .refl _

/-- The newest class first. -/
def descending : RoundOrder where
  classes done resolver := (List.range' done (resolver.arena.classes.size - done)).reverse
  perm _ _ := List.reverse_perm _

end RoundOrder

/-- One round in an order of its own. -/
def roundIn (m : Metadata) (maxDepth : Nat) (order : RoundOrder) (state : Nat × Resolver) :
    Nat × Resolver :=
  (state.2.arena.classes.size,
    (order.classes state.1 state.2).foldl (completeClass m maxDepth) state.2)

theorem roundIn_ascending (m : Metadata) (maxDepth : Nat) :
    roundIn m maxDepth .ascending = round m maxDepth := rfl

/-- A round with nothing to do does nothing. -/
theorem roundIn_of_le {order : RoundOrder} {done : Nat} {resolver : Resolver}
    (h : resolver.arena.classes.size ≤ done) :
    roundIn m maxDepth order (done, resolver) = (resolver.arena.classes.size, resolver) := by
  have h_none := order.perm done resolver
  rw [Nat.sub_eq_zero_of_le h] at h_none
  rw [roundIn, List.perm_nil.mp h_none]
  rfl

theorem confined_roundIn {start : Arena} {done : Nat} {resolver : Resolver}
    (h : Arena.Confined m maxDepth start resolver.arena) (order : RoundOrder) :
    Arena.Confined m maxDepth start (roundIn m maxDepth order (done, resolver)).2.arena := by
  refine foldl_induction (P := fun r => Arena.Confined m maxDepth start r.arena)
    (fun resolver index h => ?_) _ h
  rw [completeClass, attempt_arena]
  exact h.complete ⟨index⟩

/-- **Rounds come to an end**, whatever their order, by induction on how many classes there is room
for. -/
theorem exists_last_round {start : Arena} {bound : Nat}
    (h_bound : ∀ arena, Arena.Confined m maxDepth start arena → arena.classes.size ≤ bound)
    (order : RoundOrder) (room : Nat) {done : Nat} {resolver : Resolver}
    (h_room : bound - done < room) (h : Arena.Confined m maxDepth start resolver.arena) :
    ∃ rounds, let state := (roundIn m maxDepth order)^[rounds] (done, resolver)
      state.2.arena.classes.size ≤ state.1 := by
  induction room generalizing done resolver with
  | zero => exact absurd h_room (Nat.not_lt_zero _)
  | succ room ih =>
    by_cases h_done : resolver.arena.classes.size ≤ done
    · exact ⟨0, h_done⟩
    · have h_size := h_bound _ h
      -- a round that is not the last one leaves less room
      have h_less : bound - resolver.arena.classes.size < room := by omega
      obtain ⟨rounds, h_last⟩ := ih h_less (confined_roundIn h order)
      exact ⟨rounds + 1, h_last⟩

/-- A round comes first. -/
theorem completes_of_roundIn {order : RoundOrder} {done : Nat} {resolver final : Resolver}
    (h : let next := roundIn m maxDepth order (done, resolver)
      Completes m maxDepth next.1 next.2 final) : Completes m maxDepth done resolver final := by
  by_cases h_done : resolver.arena.classes.size ≤ done
  · -- nothing was left, and nothing has changed
    rw [roundIn_of_le h_done] at h
    cases h with
    | last => exact .last h_done
    | round h_left => exact absurd h_left (Nat.lt_irrefl _)
  · exact .round (Nat.not_le.mp h_done) (order.perm done resolver) h

theorem completeFrom?_of_le {done : Nat} {resolver : Resolver}
    (h : resolver.arena.classes.size ≤ done) :
    completeFrom? m maxDepth done resolver = some resolver := by
  rw [completeFrom?, if_pos h]

theorem completeFrom?_round (done : Nat) (resolver : Resolver) :
    completeFrom? m maxDepth (round m maxDepth (done, resolver)).1
      (round m maxDepth (done, resolver)).2 = completeFrom? m maxDepth done resolver := by
  by_cases h_done : resolver.arena.classes.size ≤ done
  · rw [← roundIn_ascending, roundIn_of_le h_done, completeFrom?_of_le (Nat.le_refl _),
      completeFrom?_of_le h_done]
  · rw [completeFrom?.eq_def m maxDepth done resolver]
    exact (if_neg h_done).symm

/-- Where rounds come to an end, they have completed everything. -/
theorem completes_of_last_round {order : RoundOrder} (rounds : Nat) {done : Nat}
    {resolver : Resolver}
    (h_last : let state := (roundIn m maxDepth order)^[rounds] (done, resolver)
      state.2.arena.classes.size ≤ state.1) :
    Completes m maxDepth done resolver
      ((roundIn m maxDepth order)^[rounds] (done, resolver)).2 := by
  induction rounds generalizing done resolver with
  | zero => exact .last h_last
  | succ rounds ih => exact completes_of_roundIn (ih h_last)

theorem completeFrom?_of_last_round (rounds : Nat) {done : Nat} {resolver : Resolver}
    (h_last : let state := (round m maxDepth)^[rounds] (done, resolver)
      state.2.arena.classes.size ≤ state.1) :
    completeFrom? m maxDepth done resolver =
      some ((round m maxDepth)^[rounds] (done, resolver)).2 := by
  induction rounds generalizing done resolver with
  | zero => exact completeFrom?_of_le h_last
  | succ rounds ih => exact (completeFrom?_round done resolver).symm.trans (ih h_last)

/-- From every sound state completion has a result. -/
theorem exists_rounds {resolver : Resolver} (h : resolver.arena.Sound m) (maxDepth : Nat) :
    ∃ rounds, let state := (round m maxDepth)^[rounds] (0, resolver)
      state.2.arena.classes.size ≤ state.1 ∧
        completeFrom? m maxDepth 0 resolver = some state.2 := by
  obtain ⟨rounds, h_last⟩ :=
    exists_last_round (fun _ h => h.size_le) .ascending _ (Nat.lt_succ_self _) h.confined
  exact ⟨rounds, h_last, completeFrom?_of_last_round rounds h_last⟩

/-- **The run in order** is one of the runs. -/
theorem runsFrom_run {resolver : Resolver} (h : resolver.arena.Sound m) :
    RunsFrom m config resolver (resolver.run m config) := by
  obtain ⟨rounds, -, h_final⟩ := exists_rounds (sound_start h) config.maxGenericDepth
  rw [run, h_final]
  exact runsFrom_of_completeFrom? h_final

/-- **Termination.** From every reachable state, a run comes to a round that creates no class: after
finitely many rounds there is no class that was not there before the last one, and what is there
then is what the run gives. The same holds in whatever order definitions and listings are visited
and each round completes its classes. -/
theorem completion_terminates {resolver : Resolver} (h : Reachable m config resolver) :
    (∃ rounds,
      let state := (round m config.maxGenericDepth)^[rounds] (0, resolver.start m config)
      state.2.arena.classes.size ≤ state.1 ∧ resolver.run m config = state.2) ∧
    ∀ (seeds : List Nat) (listed : List (Nat × Nat)) (order : RoundOrder),
      seeds.Perm (List.range m.typeDefinitions.size) → listed.Perm (m.listings config) →
        ∃ rounds,
          let state := (roundIn m config.maxGenericDepth order)^[rounds]
            (0, listed.foldl (seedListed m config.maxGenericDepth) (seeds.foldl (seed m) resolver))
          state.2.arena.classes.size ≤ state.1 ∧ RunsFrom m config resolver state.2 := by
  constructor
  · obtain ⟨rounds, h_last, h_final⟩ := exists_rounds (sound_start h.sound) config.maxGenericDepth
    refine ⟨rounds, h_last, ?_⟩
    rw [run, h_final]
    rfl
  · intro seeds listed order h_seeds h_listed
    -- the bound on the rounds asks for soundness only, which visits keep in any order
    have h_visited : (listed.foldl (seedListed m config.maxGenericDepth)
        (seeds.foldl (seed m) resolver)).arena.Sound m := by
      rw [← foldl_make_start]
      exact foldl_induction (P := fun r => r.arena.Sound m) (fun _ v h_r => sound_make h_r v) _
        h.sound
    obtain ⟨rounds, h_last⟩ :=
      exists_last_round (fun _ h => h.size_le) order _ (Nat.lt_succ_self _) h_visited.confined
    exact ⟨rounds, h_last, seeds, listed, h_seeds, h_listed, completes_of_last_round rounds h_last⟩

end Resolver

/-! ### A definition that expands itself -/

/-- One definition with a generic parameter, and a field of it: the type of the field is the
definition with itself put in, so that every instantiation asks for a deeper one. -/
def Metadata.growing : Metadata :=
  { Metadata.bare with
    strings := nestStrings
    typeDefinitions := #[
      { nestedRow none with genericContainerIndex := some 0, fieldStart := 0, fieldCount := 1 }]
    fields := #[⟨0, some 0, none⟩]
    genericContainers := #[⟨0, 1, false, some 0⟩]
    genericParameters := #[⟨0, 0, 0, 0, 0, 0⟩]
    registration :=
      { Metadata.bare.registration with
        image :=
          { format := .flat
            data := ⟨#[
              -- an instantiation of the definition, with the arguments at 0x1010
              0, 0, 0, 0, 0x10, 0x10, 0, 0, 0, 0, 0, 0, 0, 0, 0, 0,
              -- one argument, the address of which is at 0x1018
              1, 0, 0, 0, 0x18, 0x10, 0, 0,
              -- the address of the argument, which is the next instantiation
              0x40, 0, 0, 0,
              -- an instantiation of the definition, with the arguments at 0x102C
              0, 0, 0, 0, 0x2C, 0x10, 0, 0, 0, 0, 0, 0, 0, 0, 0, 0,
              -- one argument, the address of which is at 0x1034
              1, 0, 0, 0, 0x34, 0x10, 0, 0,
              -- the address of the argument, which is the parameter
              0x50, 0, 0, 0]⟩
            segments := [⟨0x1000, 0, 56⟩]
            pointerWidth := .bits32
            endian := .little }
        types := #[⟨0, .genericInst, 0, false, false, .instantiation 0x1000⟩,
          ⟨0, .genericInst, 0, false, false, .instantiation 0x101C⟩,
          ⟨0, .var, 0, false, false, .parameter 0⟩]
        typeAddresses := #[0x30, 0x40, 0x50]
        layouts := ⟨boxedLayout .typeDescriptor, boxedLayout .genericClass,
          boxedLayout .genericInst, boxedLayout .arrayType⟩ } }

namespace Resolver

/-- With a limit of three the definition in `growing` gets an instantiation of each depth, one in
every round and whichever class a round completes first. -/
theorem completion_terminates_growing :
    let config := { Config.minimal with maxGenericDepth := 3 }
    let start := empty.start .growing config
    start.arena.classes.size = 1 ∧
      (∃ rounds,
        let state := (round .growing 3)^[rounds] (0, start)
        state.2.arena.classes.size ≤ state.1 ∧ empty.run .growing config = state.2) ∧
      (∃ rounds,
        let state := (roundIn .growing 3 .descending)^[rounds] (0, start)
        state.2.arena.classes.size ≤ state.1 ∧ RunsFrom .growing config .empty state.2) ∧
      (empty.run .growing config).report = ⟨[], 4, 3, 1⟩ := by
  intro config start
  have h_empty : Reachable .growing config .empty := .empty
  obtain ⟨h_run, h_orders⟩ := completion_terminates h_empty
  refine ⟨by decide +kernel, h_run, h_orders [0] [] .descending (.refl _) (.refl _), ?_⟩
  -- the fourth round creates nothing
  have h_last : let state := (round .growing 3)^[4] (0, start)
      state.2.arena.classes.size ≤ state.1 := by
    decide +kernel
  rw [run, completeFrom?_of_last_round 4 h_last]
  decide +kernel

end Resolver

end GlobalMetadata
