import GlobalMetadata.Proofs.Traversal
import GlobalMetadata.Proofs.Visit

/-!
# What is nested in a class

A class lists the classes nested in it among its members, and a definition names the one around it
in its row. The two come from different tables. Here they are put side by side:

* a class lists nothing but definitions that name its own definition as the one around them
  (`Resolver.around_of_nests`);
* a class with members lists every definition in the run of nested types that its definition has
  (`Resolver.nests_of_lists`).

Both are read off the meaning of the members, since what was published is what was meant
(`Resolver.meant_stateAfter`). That is kept by every visit, whatever comes before it.
-/

namespace GlobalMetadata

/-! ### Values of meanings -/

namespace Meaning

variable {α β : Type}

/-- A sequence of two has a value if both have one. -/
theorem bind_value_eq_some_iff {x : Meaning α} {f : α → Meaning β} {b : β} :
    (x >>= f).value = some b ↔ ∃ a, x.value = some a ∧ (f a).value = some b := by
  cases h_x : x.value with
  | none =>
    rw [bind_of_none h_x]
    constructor
    · intro h_none
      cases h_none
    · rintro ⟨_, h_none, -⟩
      cases h_none
  | some a =>
    rw [bind_of_value h_x]
    constructor
    · exact fun h_b => ⟨a, rfl, h_b⟩
    · rintro ⟨_, h_a, h_b⟩
      cases h_a
      exact h_b

/-- The values of a list, one by one. -/
theorem forall₂_of_mapM_value {f : α → Meaning β} {as : List α} {bs : List β}
    (h : (as.mapM f).value = some bs) : List.Forall₂ (fun a b => (f a).value = some b) as bs := by
  induction as generalizing bs with
  | nil =>
    cases h
    exact .nil
  | cons a as ih =>
    rw [List.mapM_cons] at h
    obtain ⟨b, h_b, h⟩ := bind_value_eq_some_iff.mp h
    obtain ⟨bs', h_bs, h⟩ := bind_value_eq_some_iff.mp h
    cases h
    exact .cons h_b (ih h_bs)

variable {m : Metadata} {maxDepth : Nat} {owner k : KeyTerm} {t : MembersTerm}

/-- The nested classes are those that the row of the definition gives. -/
theorem nested_value_of_members (h : (members m maxDepth owner).value = some t) :
    ∃ row, m.typeDefinition owner.definition = .ok row ∧
      (nested m owner row).value = some t.nested := by
  obtain ⟨row, h_row, h⟩ := bind_value_eq_some_iff.mp h
  obtain ⟨_, -, h⟩ := bind_value_eq_some_iff.mp h
  obtain ⟨_, -, h⟩ := bind_value_eq_some_iff.mp h
  obtain ⟨_, -, h⟩ := bind_value_eq_some_iff.mp h
  obtain ⟨_, h_nested, h⟩ := bind_value_eq_some_iff.mp h
  cases h
  exact ⟨row, read_value_eq_some_iff.mp h_row, h_nested⟩

/-- An entry that has a value is a definition with the owner around it. -/
theorem nestedClass_value_eq_some_iff {entry : Int} :
    (nestedClass m owner entry).value = some k ↔ ∃ e lineage, entry = Int.ofNat e ∧
      k = .ofDefinition e ∧ m.Traces e lineage ∧
        lineage.outer?.map (·.frame.definition) = some owner.definition := by
  cases entry with
  | negSucc n =>
    constructor
    · intro h_none
      cases h_none
    · rintro ⟨_, _, h_entry, -⟩
      cases h_entry
  | ofNat e =>
    have h_step : (nestedClass m owner (Int.ofNat e)).value = some k ↔ ∃ lineage,
        (definition m e).value = some lineage ∧
          (if lineage.outer?.map (·.frame.definition) = some owner.definition then
            (pure (.ofDefinition e) : Meaning KeyTerm) else nothing).value = some k :=
      bind_value_eq_some_iff
    rw [h_step]
    constructor
    · rintro ⟨lineage, h_lineage, h_k⟩
      split at h_k
      next h_outer =>
        cases h_k
        rw [definition, read_value_eq_some_iff, Metadata.lineage_eq_ok_iff] at h_lineage
        exact ⟨e, lineage, rfl, rfl, h_lineage, h_outer⟩
      next => cases h_k
    · rintro ⟨_, lineage, h_entry, rfl, h_traces, h_outer⟩
      cases h_entry
      refine ⟨lineage, ?_, by rw [if_pos h_outer]; rfl⟩
      rw [definition, read_value_eq_some_iff, Metadata.lineage_eq_ok_iff]
      exact h_traces

/-- The nested classes of a definition are the values of the entries in its run. -/
theorem nested_value_eq_some {row : TypeDefinition} {ks : List KeyTerm}
    (h : (nested m owner row).value = some ks) :
    owner.isInstantiation = true ∧ ks = [] ∨ owner.isInstantiation = false ∧ ∃ rows,
      Metadata.memberRows .nestedType m.nestedTypes row.nestedTypesStart row.nestedTypeCount =
          .ok rows ∧
        List.Forall₂ (fun entry k => (nestedClass m owner entry).value = some k) rows ks := by
  unfold nested at h
  cases h_inst : owner.isInstantiation with
  | true =>
    rw [h_inst] at h
    cases h
    exact .inl ⟨rfl, rfl⟩
  | false =>
    rw [h_inst] at h
    obtain ⟨rows, h_rows, h⟩ := bind_value_eq_some_iff.mp h
    exact .inr ⟨rfl, rows, read_value_eq_some_iff.mp h_rows, forall₂_of_mapM_value h⟩

end Meaning

/-! ### Runs of nested types -/

namespace Metadata

/-- The run of nested types of a row has a definition among its entries. -/
def Lists (m : Metadata) (row : TypeDefinition) (inner : Nat) : Prop :=
  ∃ start position, toIndex? row.nestedTypesStart = some start ∧ position < row.nestedTypeCount ∧
    m.nestedTypes[start + position]? = some (inner : Int)

/-- What is at a position of a run is among its entries. -/
theorem mem_memberRows {α : Type} {table : MemberTable} {entries : Array α} {first : Int}
    {count start position : Nat} {rows : List α} {a : α}
    (h_rows : memberRows table entries first count = .ok rows)
    (h_start : toIndex? first = some start) (h_position : position < count)
    (h_at : entries[start + position]? = some a) : a ∈ rows := by
  obtain ⟨run, h_run, h_rows⟩ := except_bind_eq_ok_iff.mp h_rows
  cases h_rows
  -- the run is not empty, so that it has been found in the table
  rw [members, if_neg (Nat.ne_of_gt (Nat.zero_lt_of_lt h_position)), h_start] at h_run
  have h_found : runOf? start count entries.size = some run := by
    split at h_run
    next h_some =>
      cases h_run
      exact h_some
    next => cases h_run
  rw [runOf?] at h_found
  split at h_found
  next h_inside =>
    cases h_found
    refine List.mem_iff_getElem?.mpr ⟨position, ?_⟩
    rw [Array.getElem?_toList, Array.getElem?_extract, if_pos (by omega), h_at]
  next => cases h_found

end Metadata

/-! ### What is published -/

namespace Arena

/-- Members are what a key means. -/
def Means (m : Metadata) (config : Config) (arena : Arena) (key : ClassKey) (members : Members) :
    Prop :=
  ∃ k t, arena.UnfoldsKey k key ∧ (m.membersMeaning config k).value = some t ∧
    arena.ReadsMembers t members

/-- The members of every class are what its key means. -/
def Meant (m : Metadata) (config : Config) (arena : Arena) : Prop :=
  ∀ id c members, arena.class? id = some c → c.members = some members →
    arena.Means m config c.key members

variable {m : Metadata} {config : Config} {arena arena' : Arena}

theorem Means.mono (h_le : arena ≤ arena') {key : ClassKey} {members : Members}
    (h : arena.Means m config key members) : arena'.Means m config key members := by
  obtain ⟨k, t, h_k, h_t, h_reads⟩ := h
  exact ⟨k, t, h_k.mono h_le, h_t, h_reads.mono h_le⟩

/-- What members mean does not change when bare classes are added. -/
theorem Meant.addsBare (h : arena.Meant m config) (h_bare : arena.AddsBare arena') :
    arena'.Meant m config := by
  have h_later := AllMembers.imp (Q := fun _ => arena'.Means m config) h
    fun _ _ _ h_means => h_means.mono h_bare.grows
  exact h_later.addsBare h_bare

/-- Members that mean what the key of their class means may be published. -/
theorem Meant.publish (h : arena.Meant m config) {id : ClassId} {c : ResolvedClass}
    (h_c : arena.class? id = some c) {members : Members}
    (h_means : arena.Means m config c.key members) :
    (arena.publish id members).Meant m config := by
  have h_le := arena.le_publish id members
  have h_later := AllMembers.imp (Q := fun _ => (arena.publish id members).Means m config) h
    fun _ _ _ h_old => h_old.mono h_le
  exact h_later.publish h_c (h_means.mono h_le)

/-- A class that stands for a key without arguments is that of the definition. -/
theorem find?_of_unfoldsClass {k : KeyTerm} {id : ClassId} (h : arena.UnfoldsClass k id)
    (h_plain : k.isInstantiation = false) :
    arena.find? (.ofDefinition k.definition) = some id := by
  obtain ⟨c, h_c, h_k⟩ := h
  have h_key := ClassKey.eq_ofDefinition (h_k.isInstantiation_eq.trans h_plain)
  rw [h_k.1] at h_key
  exact find?_eq_some_iff.mpr ⟨c, h_c, h_key⟩

end Arena

namespace Resolving

variable {m : Metadata} {config : Config} {arena : Arena}

/-- What is resolved for a class is what its key means. -/
theorem means_of_members (h : arena.Sound m) {id : ClassId} {c : ResolvedClass}
    (h_c : arena.class? id = some c) {ms : Members}
    (h_ms : result (members m config.maxGenericDepth id c) arena = .ok ms) :
    (after (members m config.maxGenericDepth id c) arena).Means m config c.key ms := by
  obtain ⟨_, k, -, h_shows⟩ := h.classes id c h_c
  have h_follows := members_follows config.maxGenericDepth h h_c h_shows.key
  obtain ⟨t, h_t, h_reads⟩ := h_follows.value ms h_ms
  exact ⟨k, t, h_shows.key.mono h_follows.grows, h_t, h_reads⟩

/-- **Completing a class publishes what is meant.** -/
theorem meant_complete (h_sound : arena.Sound m) (h : arena.Meant m config) (owner : ClassId) :
    (after (complete m config.maxGenericDepth owner) arena).Meant m config := by
  cases h_c : arena.class? owner with
  | none =>
    rw [(complete_of_none config.maxGenericDepth h_c).2]
    exact h
  | some c =>
    obtain ⟨-, h_bare, h_there, h_cases⟩ := complete_cases config.maxGenericDepth h_sound h_c
    have h_created := h.addsBare h_bare
    rcases h_cases with ⟨ms, h_ms, -, h_after⟩ | ⟨e, -, -, h_after⟩
    · rw [h_after]
      exact h_created.publish h_there (means_of_members h_sound h_c h_ms)
    · rw [h_after]
      exact h_created

end Resolving

namespace Resolver

variable {m : Metadata} {config : Config} {resolver : Resolver}

/-- **A visit publishes nothing but what is meant.** -/
theorem meant_make (h_sound : resolver.arena.Sound m) (h : resolver.arena.Meant m config)
    (v : Visit) : (make m config resolver v).arena.Meant m config := by
  cases v with
  | definition d =>
    rw [make, seed, attempt_arena]
    exact h.addsBare (Resolving.definition_follows h_sound d).addsBare
  | listing entry =>
    rw [make, seedListed, attempt_arena]
    exact h.addsBare (Resolving.listed_follows config.maxGenericDepth h_sound entry.1).addsBare
  | «class» i =>
    rw [make, completeClass, attempt_arena]
    exact Resolving.meant_complete h_sound h ⟨i⟩

/-- **What is published is what is meant**, at any time of a run. By induction on the visits. -/
theorem meant_stateAfter (m : Metadata) (config : Config) (visits : List Visit) :
    (stateAfter m config visits).arena.Meant m config := by
  induction visits with
  | nil => exact fun _ _ _ h_c => by cases h_c
  | cons v visits ih => exact meant_make (sound_stateAfter visits) ih v

theorem RunsTo.meant {final : Resolver} (h : RunsTo m config final) :
    final.arena.Meant m config := by
  obtain ⟨visits, -, rfl, -⟩ := exists_schedule h
  exact meant_stateAfter m config visits

theorem RunsTo.sound {final : Resolver} (h : RunsTo m config final) : final.arena.Sound m := by
  obtain ⟨visits, -, rfl, -⟩ := exists_schedule h
  exact sound_stateAfter visits

/-! ### Classes inside each other -/

section Nesting

variable {outer inner : ClassId}

/-- Only a class with members has classes nested in it. -/
theorem exists_members_of_mem_nested {c : ResolvedClass} (h : inner ∈ c.nested) :
    ∃ members, c.members = some members ∧ inner ∈ members.nested := by
  rw [ResolvedClass.nested] at h
  cases h_members : c.members with
  | none =>
    rw [h_members] at h
    exact absurd h List.not_mem_nil
  | some members =>
    rw [h_members] at h
    exact ⟨members, rfl, h⟩

/-- **What is nested is declared there.** A class that is nested in another one is that of a
definition, and the other one is the class of the definition around. -/
theorem around_of_nests (h : resolver.arena.Meant m config)
    (h_nests : (resolver.toGraph m).Nests outer inner) :
    ∃ e lineage around, resolver.arena.find? (.ofDefinition e) = some inner ∧
      m.Traces e lineage ∧ lineage.outer? = some around ∧
        resolver.arena.find? (.ofDefinition around.frame.definition) = some outer := by
  obtain ⟨⟨c, h_c, h_mem⟩, -⟩ := h_nests
  obtain ⟨members, h_members, h_mem⟩ := exists_members_of_mem_nested h_mem
  obtain ⟨k, t, h_k, h_t, h_reads⟩ := h outer c members h_c h_members
  obtain ⟨row, -, h_nested⟩ := Meaning.nested_value_of_members h_t
  obtain ⟨k', h_k', h_inner⟩ := exists_left_of_forall₂ h_reads.nested h_mem
  rcases Meaning.nested_value_eq_some h_nested with ⟨-, h_nil⟩ | ⟨h_plain, rows, -, h_each⟩
  · rw [h_nil] at h_k'
    exact absurd h_k' List.not_mem_nil
  · obtain ⟨entry, -, h_entry⟩ := exists_left_of_forall₂ h_each h_k'
    obtain ⟨e, lineage, -, rfl, h_traces, h_outer⟩ :=
      Meaning.nestedClass_value_eq_some_iff.mp h_entry
    obtain ⟨around, h_around, h_definition⟩ := Option.map_eq_some_iff.mp h_outer
    refine ⟨e, lineage, around, Arena.find?_of_unfoldsClass h_inner rfl, h_traces, h_around, ?_⟩
    rw [h_definition]
    exact Arena.find?_of_unfoldsClass ⟨c, h_c, h_k⟩ h_plain

/-- **What is listed is nested.** A class with members has all definitions in the run of its row
nested in it, as far as they have members. -/
theorem nests_of_lists (h : resolver.arena.Meant m config) {d e : Nat} {row : TypeDefinition}
    (h_outer : resolver.arena.find? (.ofDefinition d) = some outer)
    (h_inner : resolver.arena.find? (.ofDefinition e) = some inner)
    (h_row : m.typeDefinition d = .ok row) (h_lists : m.Lists row e)
    (h_resolved : (resolver.toGraph m).Resolved outer)
    (h_resolved' : (resolver.toGraph m).Resolved inner) :
    (resolver.toGraph m).Nests outer inner := by
  obtain ⟨c, h_c, h_some⟩ := h_resolved
  obtain ⟨members, h_members⟩ := Option.isSome_iff_exists.mp h_some
  obtain ⟨k, t, h_k, h_t, h_reads⟩ := h outer c members h_c h_members
  obtain ⟨c', h_c', h_key⟩ := Arena.find?_eq_some_iff.mp h_outer
  cases h_c.symm.trans h_c'
  rw [h_key] at h_k
  obtain rfl := Arena.unfoldsKey_ofDefinition.mp h_k
  obtain ⟨row', h_row', h_nested⟩ := Meaning.nested_value_of_members h_t
  cases h_row.symm.trans h_row'
  rcases Meaning.nested_value_eq_some h_nested with ⟨h_inst, -⟩ | ⟨-, rows, h_rows, h_each⟩
  · cases h_inst
  · obtain ⟨start, position, h_start, h_position, h_at⟩ := h_lists
    have h_entry := Metadata.mem_memberRows h_rows h_start h_position h_at
    -- the entry has been given a class, which is the one at hand
    obtain ⟨k', h_k', h_value⟩ := exists_right_of_forall₂ h_each h_entry
    obtain ⟨_, -, h_same, rfl, -⟩ := Meaning.nestedClass_value_eq_some_iff.mp h_value
    obtain rfl := Int.ofNat.inj h_same
    obtain ⟨id, h_id, h_class⟩ := exists_right_of_forall₂ h_reads.nested h_k'
    cases h_inner.symm.trans (Arena.find?_of_unfoldsClass h_class rfl)
    refine ⟨⟨c, h_c, ?_⟩, h_resolved'⟩
    rw [ResolvedClass.nested, h_members]
    exact h_id

end Nesting

end Resolver

end GlobalMetadata
