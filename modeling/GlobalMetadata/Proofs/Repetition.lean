import GlobalMetadata.Proofs.Depth
import GlobalMetadata.Proofs.Nesting

/-!
# Steps done again

A step of resolution looks up what it needs and creates what is missing. Done again in an arena that
has all that it led to, it finds everything where it was, gives the same, and creates nothing. Only
the number of instantiations that were cut off grows by what it grew the first time
(`Arena.tally`), since nothing is remembered of those.

`Resolving.Repeats` says so of a step, whether it succeeds or fails. There is one failure of which
it cannot be said: a step may have been refused because too many types lie around a definition, for
want of a class that is there when the step is done again. `Resolving.Steady` are the steps that
were not refused so, or for which no tower of declaring types is too high
(`Metadata.TowersInLimit`). A tower counts more than a chain does (`Metadata.Traces`), since a type
that cannot be named keeps those inside it from having a chain, but not from being followed
outwards.

There is one lemma for each step, and they follow those of `Resolving.Follows`, which give the terms
behind the ids; by these two arenas are compared.
-/

namespace GlobalMetadata

/-! ### Counting more -/

/-- A change that leaves a value as it is leaves the catalog as it is. -/
theorem Catalog.modify_eq_self {α : Type} {key : α → List Nat} {catalog : Catalog key} {i : Nat}
    {f : α → α} {keeps : ∀ a, key (f a) = key a} (h : ∀ a, catalog.get? i = some a → f a = a) :
    catalog.modify i f keeps = catalog := by
  have h_values : catalog.values.modify i f = catalog.values := by
    refine Array.ext_getElem? fun j => ?_
    rw [Array.getElem?_modify]
    split
    next h_same =>
      cases h_at : catalog.values[j]? with
      | none => rfl
      | some a =>
        rw [Option.map_some, h a (h_same ▸ h_at)]
    next => rfl
  obtain ⟨numbers, values, h_coherent⟩ := catalog
  simp only [modify, mk.injEq, true_and]
  exact h_values

namespace Arena

variable {m : Metadata} {arena arena' : Arena}

/-- The arena with so many more instantiations cut off. -/
def tally (arena : Arena) (n : Nat) : Arena :=
  { arena with truncated := arena.truncated + n }

@[simp] theorem tally_zero : arena.tally 0 = arena := rfl

theorem tally_tally (n k : Nat) : (arena.tally n).tally k = arena.tally (n + k) :=
  congrArg (Arena.mk arena.types arena.classes) (Nat.add_assoc _ n k)

theorem le_tally (arena : Arena) (n : Nat) : arena ≤ arena.tally n :=
  ⟨fun _ _ h => h, fun _ c h => ⟨c, h, .refl c⟩, Nat.le_add_right _ n⟩

theorem Sound.tally (h : arena.Sound m) (n : Nat) : (arena.tally n).Sound m := by
  obtain ⟨time, h_time⟩ := h.timed
  exact h.grow (arena.le_tally n) ⟨time, h_time.congr rfl rfl⟩ fun _ h_id => h_id

/-- A class that has members is not given any others. -/
theorem publish_of_members {id : ClassId} {c : ResolvedClass} {old : Members}
    (h_c : arena.class? id = some c) (h_old : c.members = some old) (members : Members) :
    arena.publish id members = arena := by
  have h_classes : arena.classes.modify id.index (·.publish members) (fun _ => rfl) =
      arena.classes := by
    refine Catalog.modify_eq_self fun c' h_c' => ?_
    cases h_c.symm.trans h_c'
    rw [ResolvedClass.publish, h_old]
    exact congrArg (fun members => { c with members := members }) h_old.symm
  rw [publish, h_classes]

end Arena

/-! ### Towers -/

namespace Metadata

/-- A definition lies so many declaring types further out than another one, whether or not those in
between can be named. -/
inductive Outwards (m : Metadata) : Nat → Nat → Nat → Prop
  /-- The definition itself. -/
  | self (definition : Nat) : Outwards m definition 0 definition
  /-- From the definition around. -/
  | step {definition outer links last : Nat} {row : TypeDefinition}
      (at_row : m.typeDefinition definition = .ok row) (inside : m.Declares row outer)
      (rest : Outwards m outer links last) : Outwards m definition (links + 1) last

/-- Whatever is around a definition can be reached from there, if it has a chain. -/
def TowerInLimit (m : Metadata) (limit definition : Nat) : Prop :=
  ∀ links last lineage, m.Outwards definition links last → m.Traces last lineage →
    links + lineage.length ≤ limit

/-- No tower of declaring types is higher than what is followed at once. -/
def TowersInLimit (m : Metadata) : Prop :=
  ∀ definition, m.TowerInLimit (declaringLimit + 1) definition

end Metadata

/-! ### Steps -/

namespace Resolving

variable {α β γ : Type}

/-- A step is not refused for want of the classes around a definition, or no definition has too many
of them. -/
def Steady (m : Metadata) (arena : Arena) (x : Resolving β) : Prop :=
  m.TowersInLimit ∨ ∀ definition,
    result x arena ≠ .error (.unresolved (.declaringChain definition declaringLimit))

/-- Done again in a sound arena that has all that it led to, a step gives what it gave and only
counts. -/
structure Repeats (m : Metadata) (arena : Arena) (x : Resolving β) : Prop where
  grows : arena ≤ after x arena
  again : Steady m arena x → ∀ arena', after x arena ≤ arena' → arena'.Sound m →
    result x arena' = result x arena ∧
      after x arena' = arena'.tally ((after x arena).truncated - arena.truncated)

section Rules

variable {m : Metadata} {arena : Arena} {x : Resolving β}

theorem steady_of_ok {b : β} (h : result x arena = .ok b) : Steady m arena x :=
  .inr fun definition h_error => by
    rw [h] at h_error
    cases h_error

/-- Whether a step is steady depends on its failure only. -/
theorem Steady.of_error {arena' : Arena} {y : Resolving α} {e : Error} (h : Steady m arena x)
    (h_x : result x arena = .error e) (h_y : result y arena' = .error e) : Steady m arena' y :=
  h.imp_right fun h_other definition h_same => by
    rw [h_y] at h_same
    cases h_same
    exact h_other definition h_x

/-- A step that does the same everywhere, and changes nothing. -/
theorem Repeats.stay {r : Except Error β}
    (h : ∀ arena, result x arena = r ∧ after x arena = arena) :
    Repeats m arena x where
  grows := le_of_eq (h arena).2.symm
  again _ arena' _ _ := by
    rw [(h arena).1, (h arena).2, (h arena').1, (h arena').2, Nat.sub_self]
    exact ⟨rfl, rfl⟩

theorem Repeats.pure (b : β) : Repeats m arena (Pure.pure b) :=
  .stay fun _ => ⟨rfl, rfl⟩

theorem Repeats.throw (e : Error) : Repeats m arena (MonadExcept.throw e : Resolving β) :=
  .stay fun _ => ⟨rfl, rfl⟩

/-- A step that finds its result when it is done again, and cuts nothing off. -/
theorem Repeats.of_found (h_grows : arena ≤ after x arena)
    (h_truncated : (after x arena).truncated = arena.truncated)
    (h : Steady m arena x → ∀ arena', after x arena ≤ arena' → arena'.Sound m →
      result x arena' = result x arena ∧ after x arena' = arena') :
    Repeats m arena x where
  grows := h_grows
  again h_steady arena' h_le h_sound := by
    rw [h_truncated, Nat.sub_self]
    exact h h_steady arena' h_le h_sound

/-- **Sequences.** The second step has to be done again after the first one. -/
theorem Repeats.bind {f : β → Resolving α} (h : Repeats m arena x)
    (h_f : ∀ b, result x arena = .ok b → Repeats m (after x arena) (f b)) :
    Repeats m arena (x >>= f) := by
  cases h_x : result x arena with
  | error e =>
    obtain ⟨h_result, h_after⟩ := bind_of_error (f := f) h_x
    refine ⟨h_after ▸ h.grows, fun h_steady arena' h_le h_sound => ?_⟩
    rw [h_after] at h_le
    obtain ⟨h_result', h_after'⟩ :=
      h.again (h_steady.of_error h_result h_x) arena' h_le h_sound
    obtain ⟨h_again, h_again'⟩ := bind_of_error (f := f) (h_result'.trans h_x)
    rw [h_again, h_again', h_result, h_after, h_after']
    exact ⟨rfl, rfl⟩
  | ok b =>
    obtain ⟨h_result, h_after⟩ := bind_of_ok (f := f) h_x
    have h_b := h_f b h_x
    refine ⟨h_after ▸ le_trans h.grows h_b.grows, fun h_steady arena' h_le h_sound => ?_⟩
    rw [h_after] at h_le
    rw [Steady, h_result] at h_steady
    obtain ⟨h_result', h_after'⟩ :=
      h.again (steady_of_ok h_x) arena' (le_trans h_b.grows h_le) h_sound
    obtain ⟨h_again, h_again'⟩ := bind_of_ok (f := f) (h_result'.trans h_x)
    rw [h_after'] at h_again h_again'
    obtain ⟨h_second, h_second'⟩ := h_b.again h_steady _
      (le_trans h_le (arena'.le_tally _)) (h_sound.tally _)
    rw [h_again, h_again', h_result, h_after, h_second, h_second', Arena.tally_tally]
    -- both counts together
    have h_first := h.grows.truncated
    have h_last := h_b.grows.truncated
    refine ⟨rfl, congrArg arena'.tally ?_⟩
    omega

/-- Sequences, where what the first step gives is known by what it means. -/
theorem Repeats.bind_follows {f : β → Resolving α} {y : Meaning γ} {R : Arena → β → γ → Prop}
    (h : Repeats m arena x) (h_x : Follows m arena x y R)
    (h_f : ∀ arena' b c, arena ≤ arena' → arena'.Sound m → R arena' b c → Repeats m arena' (f b)) :
    Repeats m arena (x >>= f) :=
  h.bind fun b h_b => by
    obtain ⟨c, -, h_R⟩ := h_x.value b h_b
    exact h_f _ b c h.grows h_x.sound h_R

theorem Repeats.map (h : Repeats m arena x) (f : β → α) : Repeats m arena (f <$> x) := by
  rw [map_eq_pure_bind]
  exact h.bind fun b _ => .pure (f b)

/-- What is read in the tables does not depend on the arena. -/
theorem Repeats.bind_read {e : Except Error β} {f : β → Resolving α}
    (h_f : ∀ b, e = .ok b → Repeats m arena (f b)) : Repeats m arena (liftM e >>= f) :=
  Repeats.bind (.stay fun _ => ⟨rfl, rfl⟩) h_f

/-- Looking at the arena, where a larger one leads to the same. -/
theorem Repeats.bind_get {f : Arena → Resolving β} (h : Repeats m arena (f arena))
    (h_f : ∀ arena', arena ≤ arena' → arena'.Sound m → f arena' = f arena) :
    Repeats m arena (get >>= f) where
  grows := h.grows
  again h_steady arena' h_le h_sound := by
    rw [result_get_bind, after_get_bind, h_f arena' (le_trans h.grows h_le) h_sound]
    exact h.again h_steady arena' h_le h_sound

/-- **Lists.** -/
theorem Repeats.mapM {f : α → Resolving β} {g : α → Meaning γ} {R : Arena → β → γ → Prop}
    (h : arena.Sound m) (as : List α)
    (h_f : ∀ a ∈ as, ∀ arena', arena ≤ arena' → arena'.Sound m →
      Follows m arena' (f a) (g a) R ∧ Repeats m arena' (f a)) :
    Repeats m arena (as.mapM f) := by
  induction as generalizing arena with
  | nil => exact .pure []
  | cons a as ih =>
    rw [List.mapM_cons]
    obtain ⟨h_follows, h_a⟩ := h_f a List.mem_cons_self arena (le_refl _) h
    refine h_a.bind_follows h_follows fun arena' b _ h_le h_sound _ => ?_
    refine (ih h_sound fun a' h_a' arena'' h_le' => ?_).bind fun bs _ => .pure (b :: bs)
    exact h_f a' (List.mem_cons_of_mem a h_a') arena'' (le_trans h_le h_le')

end Rules

/-! ### Creating classes -/

section Creation

variable {m : Metadata} {arena : Arena}

theorem repeats_intern (type : ResolvedType) : Repeats m arena (intern type) :=
  .of_found (arena.le_intern type) rfl fun _ arena' h_le _ => by
    have h_type := Arena.type?_mono h_le (arena.type?_intern_self type)
    have h_again : arena'.intern type = ((arena.intern type).1, arena') :=
      Arena.intern_of_type? h_type
    have h_result : result (intern type) arena' = .ok (arena'.intern type).1 := rfl
    rw [h_result, h_again]
    exact ⟨rfl, congrArg Prod.snd h_again⟩

theorem repeats_insert (c : ResolvedClass) : Repeats m arena (insert c) :=
  .of_found (arena.le_insert c) rfl fun _ arena' h_le _ => by
    obtain ⟨c', h_c', h_key⟩ := arena.class?_insert_self c
    have h_found := Arena.find?_mono h_le (Arena.find?_eq_some_iff.mpr ⟨c', h_c', h_key⟩)
    have h_again : arena'.insert c = ((arena.insert c).1, arena') := Arena.insert_of_find? h_found
    have h_result : result (insert c) arena' = .ok (arena'.insert c).1 := rfl
    rw [h_result, h_again]
    exact ⟨rfl, congrArg Prod.snd h_again⟩

theorem repeats_classType (id : ClassId) : Repeats m arena (classType id) :=
  repeats_intern _

theorem repeats_openParameter (row : GenericParameter) (ofMethod : Bool) :
    Repeats m arena (openParameter m row ofMethod) :=
  .bind_read fun _ _ => repeats_intern _

/-- Creating a class, where the class around it shows the same in a larger arena. -/
theorem repeats_create (h : arena.Sound m) {outer : Option Lineage} {declaring : Option ClassId}
    (h_encloses : arena.Encloses outer declaring)
    (h_around : ∀ around, outer = some around → m.Traces around.frame.definition around)
    (index : Nat) (row : TypeDefinition) : Repeats m arena (create m index row declaring) := by
  refine .bind_read fun name _ => .bind_get ?_ fun arena' h_le h_sound => ?_
  · refine .bind_read fun namespaceName _ => .bind_read fun rows _ => ?_
    refine (Repeats.mapM h rows fun parameter _ arena' _ h_sound =>
      ⟨openParameter_follows h_sound parameter, repeats_openParameter parameter false⟩).bind
        fun ids _ => repeats_insert _
  · obtain ⟨h_shown, h_path⟩ := namespaceName_of_encloses h h_encloses h_around
    obtain ⟨h_shown', h_path'⟩ :=
      namespaceName_of_encloses h_sound (h_encloses.mono h_le) h_around
    dsimp only
    rw [h_shown, h_path, h_shown', h_path']

theorem repeats_declaringClass {resolve : Nat → Resolving ClassId} {row : TypeDefinition}
    (h_resolve : ∀ outer, m.Declares row outer → Repeats m arena (resolve outer)) :
    Repeats m arena (declaringClass m resolve row) := by
  unfold declaringClass
  split
  · exact .pure none
  next index h_index =>
    refine .bind_read fun descriptor h_descriptor => .bind_read fun outer h_outer => ?_
    exact (h_resolve outer ⟨index, descriptor, h_index, h_descriptor, h_outer⟩).map some

theorem find?_of_not_succeeds (h : arena.Sound m) {links index : Nat}
    (h_failed : ¬ Succeeds (definitionWithin m links index) arena) :
    arena.find? (.ofDefinition index) = none :=
  Option.eq_none_iff_forall_ne_some.mpr fun id h_id =>
    h_failed ⟨id, (definitionWithin_of_found h h_id).1⟩

/-- **A definition that has a chain is refused for its length only.** By induction on the links. -/
theorem declaringChain_of_traces (h : arena.Sound m) {links index : Nat} {lineage : Lineage}
    (h_traces : m.Traces index lineage)
    (h_failed : ¬ Succeeds (definitionWithin m links index) arena) :
    ∃ definition, result (definitionWithin m links index) arena =
      .error (.unresolved (.declaringChain definition declaringLimit)) := by
  have h_new := find?_of_not_succeeds h h_failed
  induction links generalizing index lineage with
  | zero =>
    refine ⟨index, ?_⟩
    rw [definitionWithin, result_get_bind, h_new]
    rfl
  | succ links ih =>
    -- the chain goes on, and what is around is refused with one link less
    have h_far : ¬ ∀ outer, lineage.outer? = some outer → arena.InReach links outer := by
      rw [← inReach_succ_iff h_new h_traces]
      exact fun h_reach =>
        h_failed ((definitionWithin_succeeds_iff h).mpr ⟨lineage, h_traces, h_reach⟩)
    cases h_traces with
    | top _ _ h_made =>
      rw [(Metadata.madeOf_of_lineageOf h_made).outer_eq] at h_far
      exact absurd (fun _ h_outer => by cases h_outer) h_far
    | @nested _ outer row _ around h_row h_inside h_traced h_made =>
      rw [(Metadata.madeOf_of_lineageOf h_made).outer_eq] at h_far
      have h_refused : ¬ Succeeds (definitionWithin m links outer) arena := by
        rw [definitionWithin_succeeds_iff h]
        rintro ⟨around', h_traces', h_reach⟩
        obtain rfl := h_traced.unique h_traces'
        exact h_far fun _ h_outer => Option.some.inj h_outer ▸ h_reach
      obtain ⟨definition, h_error⟩ := ih h_traced h_refused (find?_of_not_succeeds h h_refused)
      refine ⟨definition, ?_⟩
      rw [definitionWithin, result_get_bind, h_new]
      have h_read : result (liftM (m.typeDefinition index)) arena = .ok row := h_row
      refine (bind_of_ok h_read).1.trans ?_
      rw [declaringClass_eq h_inside]
      exact (bind_of_error (bind_of_error h_error).1).1

/-- A definition that is refused for another reason, or although its tower is not too high, has no
class anywhere, since it would have a chain if it had one. -/
theorem find?_of_refused (h : arena.Sound m) {links index : Nat}
    (h_tower : m.TowersInLimit → m.TowerInLimit links index)
    (h_steady : Steady m arena (definitionWithin m links index))
    (h_failed : ¬ Succeeds (definitionWithin m links index) arena) {arena' : Arena}
    (h_sound : arena'.Sound m) : arena'.find? (.ofDefinition index) = none := by
  refine Option.eq_none_iff_forall_ne_some.mpr fun id h_id => ?_
  obtain ⟨_, lineage, -, -, h_traces, -⟩ := h_sound.shows_of_definition h_id
  rcases h_steady with h_limit | h_other
  · have h_length := h_tower h_limit 0 index lineage (.self index) h_traces
    rw [Nat.zero_add] at h_length
    exact h_failed ((definitionWithin_succeeds_iff h).mpr
      ⟨lineage, h_traces, Arena.inReach_of_length_le h_length⟩)
  · obtain ⟨definition, h_error⟩ := declaringChain_of_traces h h_traces h_failed
    exact h_other definition h_error

/-- What creates the class of a definition that is not there. -/
theorem repeats_createWithin (h : arena.Sound m) (links index : Nat)
    (h_outer : ∀ row outer, m.typeDefinition index = .ok row → m.Declares row outer →
      Repeats m arena (definitionWithin m links outer)) :
    Repeats m arena (do
      let row ← m.typeDefinition index
      let declaring ← declaringClass m (definitionWithin m links) row
      create m index row declaring) := by
  refine .bind_read fun row h_row => ?_
  refine (repeats_declaringClass fun outer => h_outer row outer h_row).bind_follows
    (declaringClass_follows h (fun outer => definitionWithin_follows h links outer) row).with_value
    fun arena' declaring outer h_le h_sound ⟨h_value, h_encloses⟩ => ?_
  refine repeats_create h_sound h_encloses (fun around h_some => ?_) index row
  rw [Meaning.read_value_eq_some_iff, Metadata.outerLineage_eq_ok_iff] at h_value
  rcases h_value with ⟨-, rfl⟩ | ⟨o, around', -, h_traced, rfl⟩
  · cases h_some
  · cases h_some
    rw [Metadata.lineage_eq_ok_iff] at h_traced
    rwa [h_traced.frame_definition]

/-- A definition that has a class is found again. What remains to be seen is that one that is
refused is refused again. -/
theorem repeats_of_refused (h : arena.Sound m) {links index : Nat}
    (h_tower : m.TowersInLimit → m.TowerInLimit links index)
    (h_refused : Steady m arena (definitionWithin m links index) →
      arena.find? (.ofDefinition index) = none →
      ∀ arena', after (definitionWithin m links index) arena ≤ arena' → arena'.Sound m →
        arena'.find? (.ofDefinition index) = none →
        result (definitionWithin m links index) arena' =
            result (definitionWithin m links index) arena ∧
          after (definitionWithin m links index) arena' = arena') :
    Repeats m arena (definitionWithin m links index) := by
  have h_follows := definitionWithin_follows h links index
  refine .of_found h_follows.grows (h_follows.truncated_eq rfl) fun h_steady arena' h_le
    h_sound => ?_
  cases h_x : result (definitionWithin m links index) arena with
  | ok id =>
    obtain ⟨_, -, -, h_id⟩ := h_follows.value id h_x
    exact definitionWithin_found links (Arena.find?_mono h_le h_id)
  | error e =>
    have h_failed := not_succeeds_iff.mpr ⟨e, h_x⟩
    rw [← h_x]
    exact h_refused h_steady (find?_of_refused h h_tower h_steady h_failed h) arena' h_le h_sound
      (find?_of_refused h h_tower h_steady h_failed h_sound)

/-- **Definitions.** By induction on the number of types that may still be followed outwards. -/
theorem repeats_definitionWithin (h : arena.Sound m) {links index : Nat}
    (h_tower : m.TowersInLimit → m.TowerInLimit links index) :
    Repeats m arena (definitionWithin m links index) := by
  induction links generalizing index with
  | zero =>
    refine repeats_of_refused h h_tower fun _ h_new arena' _ _ h_new' => ?_
    rw [definitionWithin, result_get_bind, result_get_bind, after_get_bind, h_new, h_new']
    exact ⟨rfl, rfl⟩
  | succ links ih =>
    refine repeats_of_refused h h_tower fun h_steady h_new arena' h_le h_sound h_new' => ?_
    have h_body := repeats_createWithin h links index fun row outer h_row h_inside =>
      ih fun h_towers n last lineage h_outwards h_traces => by
        have h_length := h_tower h_towers (n + 1) last lineage
          (.step h_row h_inside h_outwards) h_traces
        omega
    have h_count := (definitionWithin_follows h (links + 1) index).truncated_eq rfl
    rw [definitionWithin, after_get_bind, h_new] at h_le h_count
    rw [Steady, definitionWithin, result_get_bind, h_new] at h_steady
    obtain ⟨h_again, h_again'⟩ := h_body.again h_steady arena' h_le h_sound
    rw [h_count, Nat.sub_self, Arena.tally_zero] at h_again'
    rw [definitionWithin, result_get_bind, result_get_bind, after_get_bind, h_new, h_new']
    exact ⟨h_again, h_again'⟩

theorem repeats_definition (h : arena.Sound m) (index : Nat) :
    Repeats m arena (definition m index) :=
  repeats_definitionWithin h fun h_limit => h_limit index

/-- The class for a key whose definition has a class. -/
theorem repeats_classOf (h : arena.Sound m) {key : ClassKey} {k : KeyTerm}
    (h_k : arena.UnfoldsKey k key) {base : ClassId}
    (h_base : arena.find? (.ofDefinition key.definition) = some base) :
    Repeats m arena (classOf m key) := by
  have h_follows := classOf_follows h h_k
  obtain ⟨owner, h_owner⟩ := exists_classOf (m := m) h_base
  obtain ⟨_, -, -, h_found⟩ := h_follows.value owner h_owner
  refine .of_found h_follows.grows (h_follows.truncated_eq (Meaning.cuts_classOf m k))
    fun _ arena' h_le _ => ?_
  rw [h_owner]
  exact classOf_found (Arena.find?_mono h_le h_found)

theorem repeats_truncate : Repeats m arena (modify (·.truncate)) where
  grows := arena.le_truncate
  again _ arena' _ _ := by
    have h_count : arena.truncated + 1 - arena.truncated = 1 := Nat.add_sub_cancel_left _ 1
    exact ⟨rfl, congrArg arena'.tally h_count.symm⟩

variable (maxDepth : Nat)

/-- What comes after the definition of an instantiation is decided in the same way. -/
theorem repeats_settle (h : arena.Sound m) {key : ClassKey} {k : KeyTerm}
    (h_k : arena.UnfoldsKey k key) {base : ClassId}
    (h_base : arena.find? (.ofDefinition key.definition) = some base) :
    Repeats m arena (settle m maxDepth key base) := by
  obtain ⟨c, h_c, -⟩ := Arena.find?_eq_some_iff.mp h_base
  refine .bind_get ?_ fun arena' h_le h_sound => ?_
  · dsimp only
    split
    · exact repeats_classType base
    · split
      · exact repeats_truncate.bind fun _ _ => repeats_classType base
      · exact (repeats_classOf h h_k h_base).bind fun owner _ => repeats_classType owner
  · obtain ⟨c', h_c', h_grows⟩ := Arena.class?_mono h_le h_c
    have h_args : c'.genericArgs = c.genericArgs := by rw [h_grows.shell]
    dsimp only
    rw [h_c, h_c', Option.any_some, Option.any_some, h_args, h.keyDepth_eq h_k,
      h_sound.keyDepth_eq (h_k.mono h_le)]

theorem repeats_instantiate (h : arena.Sound m) {key : ClassKey} {k : KeyTerm}
    (h_k : arena.UnfoldsKey k key) : Repeats m arena (instantiate m maxDepth key) := by
  rw [instantiate_eq]
  refine (repeats_definition h key.definition).bind_follows (definition_follows h key.definition)
    fun arena' base lineage h_le h_sound ⟨_, h_base⟩ => ?_
  exact repeats_settle maxDepth h_sound (h_k.mono h_le) h_base

/-! ### Following references -/

variable {terms : TermScope} {scope : GenericScope} {resolve : Nat → Resolving TypeId}
  {meaning : Nat → Meaning TypeTerm}

theorem repeats_parameter (index : Nat) (ofMethod : Bool) :
    Repeats m arena (parameter m scope index ofMethod) := by
  refine .bind_read fun row _ => ?_
  split
  · exact .pure _
  · exact repeats_openParameter row ofMethod

/-- A resolution of addresses that can be done again in every sound arena that extends a given
one. -/
def RepeatsAt (m : Metadata) (arena : Arena) (resolve : Nat → Resolving TypeId) : Prop :=
  ∀ address arena', arena ≤ arena' → arena'.Sound m → Repeats m arena' (resolve address)

theorem RepeatsAt.mono {arena' : Arena} (h_le : arena ≤ arena') (h : RepeatsAt m arena resolve) :
    RepeatsAt m arena' resolve :=
  fun address arena'' h_le' => h address arena'' (le_trans h_le h_le')

section Addresses

variable (h : arena.Sound m) (h_resolve : ResolvesAs m arena resolve meaning)
  (h_again : RepeatsAt m arena resolve)

include h h_resolve h_again

theorem repeats_arguments (address : Nat) : Repeats m arena (arguments m resolve address) := by
  unfold arguments
  split
  · exact .pure []
  · exact .bind_read fun inst _ => .bind_read fun addresses _ =>
      .mapM h addresses fun address _ arena' h_le h_sound =>
        ⟨h_resolve address arena' h_le h_sound, h_again address arena' h_le h_sound⟩

theorem repeats_instantiation (address : Nat) :
    Repeats m arena (instantiation m maxDepth resolve address) := by
  refine .bind_read fun generic _ => .bind_read fun row _ => ?_
  refine (repeats_arguments h h_resolve h_again generic.classInst).bind_follows
    (arguments_follows h h_resolve generic.classInst)
    fun arena₁ classIds classArgs h_le₁ h_sound₁ h_class => ?_
  refine (repeats_arguments h_sound₁ (h_resolve.mono h_le₁) (h_again.mono h_le₁)
    generic.methodInst).bind_follows
    (arguments_follows h_sound₁ (h_resolve.mono h_le₁) generic.methodInst)
    fun arena₂ methodIds methodArgs h_le₂ h_sound₂ h_method => ?_
  exact repeats_instantiate maxDepth h_sound₂
    (k := ⟨row, classArgs, methodArgs⟩) ⟨rfl, h_class.mono h_le₂, h_method⟩

theorem repeats_payload (d : Descriptor) :
    Repeats m arena (payload m maxDepth scope resolve d) := by
  unfold payload
  split
  · exact repeats_intern _
  cases d.payload with
  | none => exact repeats_intern _
  | definition row =>
    exact (repeats_definition h row).bind fun id _ => repeats_classType id
  | element address =>
    refine (h_again address arena (le_refl _) h).bind fun element _ => ?_
    split <;> exact repeats_intern _
  | array address =>
    exact .bind_read fun shape _ =>
      (h_again shape.element arena (le_refl _) h).bind fun _ _ => repeats_intern _
  | parameter index => exact repeats_parameter index _
  | instantiation address => exact repeats_instantiation maxDepth h h_resolve h_again address

end Addresses

/-- **Descriptors**, by induction on how deeply they may nest. -/
theorem repeats_descriptorWithin (h : arena.Sound m) (h_scope : arena.UnfoldsScope terms scope)
    (levels : Nat) (d : Descriptor) :
    Repeats m arena (descriptorWithin m maxDepth scope levels d) := by
  induction levels generalizing arena d with
  | zero => exact .throw _
  | succ levels ih =>
    have h_resolve : ResolvesAs m arena (atAddress m (descriptorWithin m maxDepth scope levels))
        (Meaning.atAddress m (Meaning.descriptorWithin m maxDepth terms levels)) :=
      fun address arena' h_le h_sound => .bind_read h_sound fun d' _ =>
        descriptorWithin_follows maxDepth h_sound (h_scope.mono h_le) levels d'
    have h_again : RepeatsAt m arena (atAddress m (descriptorWithin m maxDepth scope levels)) :=
      fun address arena' h_le h_sound => .bind_read fun d' _ => ih h_sound (h_scope.mono h_le) d'
    refine (repeats_payload maxDepth h h_resolve h_again d).bind fun id _ => ?_
    split
    · exact repeats_intern _
    · exact .pure id

theorem repeats_typeIndex (h : arena.Sound m) (h_scope : arena.UnfoldsScope terms scope)
    (index : Nat) : Repeats m arena (typeIndex m maxDepth scope index) :=
  .bind_read fun d _ => repeats_descriptorWithin maxDepth h h_scope _ d

/-- An instantiation that the registration tables list. -/
theorem repeats_listed (h : arena.Sound m) (address : Nat) :
    Repeats m arena (listed m maxDepth address) := by
  have h_resolve : ResolvesAs m arena
      (atAddress m (descriptorWithin m maxDepth .empty nestingLimit))
      (Meaning.atAddress m (Meaning.descriptorWithin m maxDepth .empty nestingLimit)) :=
    fun address arena' _ h_sound => .bind_read h_sound fun d _ =>
      descriptorWithin_follows maxDepth h_sound arena'.unfoldsScope_empty nestingLimit d
  refine repeats_instantiation maxDepth h h_resolve (fun address arena' _ h_sound => ?_) address
  · exact .bind_read fun d _ =>
      repeats_descriptorWithin maxDepth h_sound arena'.unfoldsScope_empty nestingLimit d

end Creation

/-! ### Completing classes -/

section Completion

variable {m : Metadata} {arena : Arena} (maxDepth : Nat) {terms : TermScope}
  {scope : GenericScope} {owner : ClassId} {k : KeyTerm}

section Scope

variable (h : arena.Sound m) (h_scope : arena.UnfoldsScope terms scope)

include h h_scope

theorem repeats_field (row : FieldDefinition) :
    Repeats m arena (field m maxDepth scope owner row) := by
  refine .bind_read fun name _ => ?_
  cases row.typeIndex with
  | none => exact .throw _
  | some index =>
    exact .bind_read fun d _ =>
      (repeats_descriptorWithin maxDepth h h_scope _ d).bind fun _ _ => .pure _

theorem repeats_fields (h_owner : arena.UnfoldsClass k owner) (row : TypeDefinition) :
    Repeats m arena (fields m maxDepth scope owner row) := by
  refine .bind_read fun rows _ => ?_
  exact (Repeats.mapM h rows fun row _ arena' h_le h_sound =>
    ⟨field_follows maxDepth h_sound (h_scope.mono h_le) (h_owner.mono h_le) row,
      repeats_field maxDepth h_sound (h_scope.mono h_le) row⟩).bind fun _ _ => .pure _

theorem repeats_methodParameter (row : ParameterDefinition) :
    Repeats m arena (methodParameter m maxDepth scope row) := by
  refine .bind_read fun name _ => ?_
  cases row.typeIndex with
  | none => exact .throw _
  | some index => exact (repeats_typeIndex maxDepth h h_scope index).bind fun _ _ => .pure _

theorem repeats_parameters (row : MethodDefinition) :
    Repeats m arena (parameters m maxDepth scope row) :=
  .bind_read fun rows _ => .mapM h rows fun row _ _ h_le h_sound =>
    ⟨methodParameter_follows maxDepth h_sound (h_scope.mono h_le) row,
      repeats_methodParameter maxDepth h_sound (h_scope.mono h_le) row⟩

theorem repeats_returnType (index : Option Nat) :
    Repeats m arena (returnType m maxDepth scope index) := by
  cases index with
  | none => exact repeats_intern .void
  | some index => exact repeats_typeIndex maxDepth h h_scope index

/-- A signature is written by what the ids stand for, and they stand for the same later on. -/
theorem repeats_method (c : ResolvedClass) (row : MethodDefinition) :
    Repeats m arena (method m maxDepth scope owner c row) := by
  refine .bind_read fun name _ => ?_
  refine (repeats_returnType maxDepth h h_scope row.returnType).bind_follows
    (returnType_follows maxDepth h h_scope row.returnType)
    fun arena₁ returnId returnTerm h_le₁ h_sound₁ h_return => ?_
  refine (repeats_parameters maxDepth h_sound₁ (h_scope.mono h_le₁) row).bind_follows
    (parameters_follows maxDepth h_sound₁ (h_scope.mono h_le₁) row)
    fun arena₂ ps ts h_le₂ h_sound₂ h_ps => ?_
  refine .bind_get (.pure _) fun arena' h_le h_sound => ?_
  have h_ps' : List.Forall₂ arena'.ReadsParameter ts ps := h_ps.imp fun _ _ h_p => h_p.mono h_le
  rw [signature_eq h_sound₂ row.isStatic (h_return.mono h_le₂) name h_ps,
    signature_eq h_sound row.isStatic ((h_return.mono h_le₂).mono h_le) name h_ps']

theorem repeats_methods (h_owner : arena.UnfoldsClass k owner) {c : ResolvedClass}
    (h_inst : c.isInstantiation = k.isInstantiation) (h_image : c.image = m.imageOf k.definition)
    (row : TypeDefinition) : Repeats m arena (methods m maxDepth scope owner c row) := by
  refine .bind_read fun rows _ => ?_
  exact (Repeats.mapM h rows fun row _ arena' h_le h_sound =>
    ⟨method_follows maxDepth h_sound (h_scope.mono h_le) (h_owner.mono h_le) h_inst h_image row,
      repeats_method maxDepth h_sound (h_scope.mono h_le) c row⟩).bind fun _ _ => .pure _

theorem repeats_underlying (c : ResolvedClass) (row : TypeDefinition) :
    Repeats m arena (underlying m maxDepth scope c row) := by
  unfold underlying
  cases row.elementTypeIndex with
  | none => exact .pure none
  | some index =>
    dsimp only
    split
    · exact (repeats_typeIndex maxDepth h h_scope index).map some
    · exact .pure none

end Scope

theorem repeats_nestedClass (h : arena.Sound m) (index : Nat) (entry : Int) :
    Repeats m arena (nestedClass m owner index entry) := by
  unfold nestedClass
  cases toIndex? entry with
  | none => exact .throw _
  | some position =>
    refine (repeats_definition h position).bind_follows (definition_follows h position)
      fun arena₁ id lineage h_le h_sound ⟨_, h_id⟩ => ?_
    obtain ⟨c, h_c, -⟩ := Arena.find?_eq_some_iff.mp h_id
    refine .bind_get ?_ fun arena' h_le' _ => ?_
    · split
      · exact .pure id
      · exact .throw _
    · -- a class keeps the one around it
      obtain ⟨c', h_c', h_grows⟩ := Arena.class?_mono h_le' h_c
      have h_declaring : c'.declaring = c.declaring := by rw [h_grows.shell]
      have h_same :
          (arena'.class? id >>= (·.declaring)) = (arena₁.class? id >>= (·.declaring)) := by
        rw [h_c, h_c']
        exact h_declaring
      rw [h_same]

theorem repeats_nested (h : arena.Sound m) {c : ResolvedClass}
    (h_owner : arena.UnfoldsClass k owner) (h_inst : c.isInstantiation = k.isInstantiation)
    (row : TypeDefinition) : Repeats m arena (nested m owner c row) := by
  unfold nested
  split
  · exact .pure []
  next h_plain =>
    have h_found : arena.find? (.ofDefinition k.definition) = some owner :=
      Arena.find?_of_unfoldsClass h_owner (h_inst ▸ Bool.not_eq_true _ ▸ h_plain)
    exact .bind_read fun rows _ => .mapM h rows fun entry _ _ h_le h_sound =>
      ⟨nestedClass_follows h_sound (Arena.find?_mono h_le h_found) c.definition entry,
        repeats_nestedClass h_sound c.definition entry⟩

/-- **Members.** The members of a class that is there. -/
theorem repeats_members (h : arena.Sound m) {id : ClassId} {c : ResolvedClass}
    (h_c : arena.class? id = some c) (h_k : arena.UnfoldsKey k c.key) :
    Repeats m arena (members m maxDepth id c) := by
  obtain ⟨lineage, h_traces, h_shows⟩ := h.shows_of_key h_c h_k
  have h_inst : c.isInstantiation = k.isInstantiation := h_k.isInstantiation_eq
  have h_owner : arena.UnfoldsClass k id := ⟨c, h_c, h_k⟩
  refine .bind_read fun row h_row => ?_
  have h_enum : c.isEnum = row.isEnum := by
    rw [ResolvedClass.definition, h_k.1, h_traces.typeDefinition_eq] at h_row
    rw [h_shows.isEnum, Except.ok.inj h_row]
  refine (repeats_underlying maxDepth h h_k.scope c row).bind_follows
    (underlying_follows maxDepth h h_k.scope h_enum) fun arena₁ _ _ h_le₁ h_sound₁ _ => ?_
  refine (repeats_fields maxDepth h_sound₁ (h_k.scope.mono h_le₁) (h_owner.mono h_le₁)
    row).bind_follows
    (fields_follows maxDepth h_sound₁ (h_k.scope.mono h_le₁) (h_owner.mono h_le₁) row)
    fun arena₂ _ _ h_le₂ h_sound₂ _ => ?_
  have h_le₁₂ := le_trans h_le₁ h_le₂
  refine (repeats_methods maxDepth h_sound₂ (h_k.scope.mono h_le₁₂) (h_owner.mono h_le₁₂) h_inst
    h_shows.image row).bind_follows
    (methods_follows maxDepth h_sound₂ (h_k.scope.mono h_le₁₂) (h_owner.mono h_le₁₂) h_inst
      h_shows.image row) fun arena₃ _ _ h_le₃ h_sound₃ _ => ?_
  exact (repeats_nested h_sound₃ (h_owner.mono (le_trans h_le₁₂ h_le₃)) h_inst row).bind
    fun _ _ => .pure _

/-- A class that has been completed has members from then on. -/
theorem exists_members_of_complete (h : arena.Sound m) {id : ClassId} {c : ResolvedClass}
    (h_c : arena.class? id = some c) {ms : Members}
    (h_ms : result (members m maxDepth id c) arena = .ok ms) {arena' : Arena}
    (h_le : after (complete m maxDepth id) arena ≤ arena') :
    ∃ c' old, arena'.class? id = some c' ∧ c'.members = some old := by
  have h_published : (after (complete m maxDepth id) arena).class? id = some (c.publish ms) := by
    rw [(complete_of_some maxDepth h_c).2, h_ms]
    show (Arena.publish _ id ms).class? id = _
    rw [Arena.class?_publish, if_pos rfl, class?_members_self h h_c, Option.map_some]
  obtain ⟨c', h_c', h_grows⟩ := Arena.class?_mono h_le h_published
  obtain ⟨old, h_old⟩ : ∃ old, (c.publish ms).members = some old := by
    cases h_members : c.members with
    | none => exact ⟨ms, c.members_publish_of_none h_members ms⟩
    | some old => exact ⟨old, c.members_publish_of_some h_members ms⟩
  exact ⟨c', old, h_c', h_grows.members old h_old⟩

/-- **Completion.** A class that has been given its members has them, and is not given any other
ones. -/
theorem repeats_complete (h : arena.Sound m) (id : ClassId) (h_id : arena.HasClass id) :
    Repeats m arena (complete m maxDepth id) := by
  obtain ⟨c, h_c⟩ := Arena.hasClass_iff.mp h_id
  obtain ⟨_, k, -, h_shows⟩ := h.classes id c h_c
  have h_members := repeats_members maxDepth h h_c h_shows.key
  have h_grows := grows_complete m maxDepth id arena
  refine ⟨h_grows, fun h_steady arena' h_le h_sound => ?_⟩
  -- the class is still what it was, but for its members
  obtain ⟨c', h_c', h_shell⟩ := Arena.class?_mono (le_trans h_grows h_le) h_c
  have h_same : members m maxDepth id c' = members m maxDepth id c := by
    rw [h_shell.shell]
    rfl
  obtain ⟨h_result, h_after⟩ := complete_of_some (m := m) maxDepth h_c
  obtain ⟨h_result', h_after'⟩ := complete_of_some (m := m) maxDepth h_c'
  rw [h_same] at h_result' h_after'
  cases h_x : result (members m maxDepth id c) arena with
  | error e =>
    have h_failed := (complete_error_iff maxDepth h_c).mpr h_x
    rw [h_x] at h_result h_after
    rw [h_after] at h_le
    obtain ⟨h_again, h_again'⟩ :=
      h_members.again (h_steady.of_error h_failed h_x) arena' h_le h_sound
    rw [h_again, h_x] at h_result' h_after'
    rw [h_result', h_after', h_result, h_after]
    exact ⟨rfl, h_again'⟩
  | ok ms =>
    obtain ⟨_, old, h_has, h_old⟩ := exists_members_of_complete maxDepth h h_c h_x h_le
    rw [h_x] at h_result h_after
    have h_before : after (members m maxDepth id c) arena ≤ arena' := by
      rw [h_after] at h_le
      exact le_trans (Arena.le_publish _ id ms) h_le
    obtain ⟨h_again, h_again'⟩ := h_members.again (steady_of_ok h_x) arena' h_before h_sound
    rw [h_again, h_x] at h_result' h_after'
    rw [h_result', h_after', h_result, h_after]
    refine ⟨rfl, ?_⟩
    -- publishing once more changes nothing
    have h_there : (after (members m maxDepth id c) arena').class? id = some _ :=
      (congrArg (Arena.class? · id) h_again').trans h_has
    exact (Arena.publish_of_members h_there h_old ms).trans h_again'

end Completion

end Resolving

end GlobalMetadata
