import GlobalMetadata.Proofs.Repetition

/-!
# What a failure says

Two runs that create classes in different orders give them different ids. Whether a step fails in
both is settled by its meaning (`Resolving.Follows.error_iff`); here it is what the error says.

`Resolving.FailsAlike arenas x` is about one step in a family of arenas, each of which has ids of
its own for what the step works on: if it fails in one of them then it fails in all of them, with
the same error. Sequences fail alike if their parts do (`FailsAlike.bind`), because a step that
succeeds everywhere gives ids for the same term everywhere (`Resolving.Follows`).

An error that a definition is refused with depends on which definitions are there, since they are
where the search along declaring types ends. The family has to grant the same definitions, either
because all of them are there that can be (`Arena.Seeded`) or because no tower of declaring types is
too high (`Metadata.TowersInLimit`). Past that no error mentions anything that arenas could differ
in, and there is one lemma for each step up to `Resolving.failsAlike_complete`.
-/

namespace GlobalMetadata

/-- Whatever has a chain among the types around a definition is found or created, if at most so many
types are followed outwards. -/
def Arena.Grants (arena : Arena) (m : Metadata) (links index : Nat) : Prop :=
  ∀ n last lineage, n ≤ links → m.Outwards index n last → m.Traces last lineage →
    arena.InReach (links - n) lineage

namespace Arena

variable {m : Metadata} {arena : Arena} {links index : Nat}

/-- Where every definition with a chain is there, none of them has to be created. -/
theorem Seeded.grants (h : arena.Seeded m) (links index : Nat) : arena.Grants m links index := by
  intro n last lineage _ _ h_traces
  obtain ⟨id, h_id⟩ := h last lineage h_traces
  rw [← h_traces.frame_definition] at h_id
  exact inReach_of_found h_id

/-- Where no tower is too high, none of them is out of reach. -/
theorem grants_of_towersInLimit (h : m.TowersInLimit) (arena : Arena) (index : Nat) :
    arena.Grants m (declaringLimit + 1) index := by
  intro n last lineage _ h_outwards h_traces
  have h_tower := h index n last lineage h_outwards h_traces
  exact inReach_of_length_le (by omega)

/-- One type further out. -/
theorem Grants.outer (h : arena.Grants m (links + 1) index) {row : TypeDefinition} {outer : Nat}
    (h_row : m.typeDefinition index = .ok row) (h_inside : m.Declares row outer) :
    arena.Grants m links outer := by
  intro n last lineage h_n h_outwards h_traces
  have h_far := h (n + 1) last lineage (Nat.succ_le_succ h_n) (.step h_row h_inside h_outwards)
    h_traces
  rwa [Nat.add_sub_add_right] at h_far

end Arena

namespace Resolving

/-! ### One step in several arenas -/

variable {ι α β γ : Type} {m : Metadata} {arenas : ι → Arena}

/-- Wherever a step fails, it fails everywhere, and with the same error. -/
def FailsAlike (arenas : ι → Arena) (x : ι → Resolving β) : Prop :=
  ∀ i j e, result (x i) (arenas i) = .error e → result (x j) (arenas j) = .error e

namespace FailsAlike

variable {x : ι → Resolving β} {f : ι → β → Resolving α}

/-- A step that fails nowhere. -/
theorem of_succeeds (h : ∀ i, Succeeds (x i) (arenas i)) : FailsAlike arenas x :=
  fun i _ e h_e => absurd (h i) (not_succeeds_iff.mpr ⟨e, h_e⟩)

theorem pure (b : ι → β) : FailsAlike arenas fun i => Pure.pure (b i) :=
  of_succeeds fun i => ⟨b i, rfl⟩

theorem throw (e : Error) : FailsAlike arenas fun _ => (MonadExcept.throw e : Resolving β) :=
  fun _ _ _ h_e => h_e

/-- What succeeds somewhere succeeds everywhere. -/
theorem exists_ok (h : FailsAlike arenas x) {i : ι} {b : β}
    (h_b : result (x i) (arenas i) = .ok b) :
    ∃ b : ι → β, ∀ j, result (x j) (arenas j) = .ok (b j) := by
  have h_all : ∀ j, Succeeds (x j) (arenas j) := fun j => by
    by_contra h_failed
    obtain ⟨e, h_e⟩ := not_succeeds_iff.mp h_failed
    rw [h j i e h_e] at h_b
    cases h_b
  exact Classical.axiomOfChoice h_all

/-- **Sequences.** If the first step succeeds, then everywhere and with ids for the same term. -/
theorem bind {y : Meaning γ} {R : Arena → β → γ → Prop} (h : FailsAlike arenas x)
    (h_follows : ∀ i, Follows m (arenas i) (x i) y R)
    (h_f : ∀ (arenas' : ι → Arena) (b : ι → β) (c : γ), (∀ i, arenas i ≤ arenas' i) →
      (∀ i, (arenas' i).Sound m) → (∀ i, R (arenas' i) (b i) c) →
        FailsAlike arenas' fun i => f i (b i)) :
    FailsAlike arenas fun i => x i >>= f i := by
  intro i j e h_e
  cases h_x : result (x i) (arenas i) with
  | error e' =>
    have h_same := (bind_of_error (f := f i) h_x).1.symm.trans h_e
    rw [(bind_of_error (h i j e' h_x)).1, h_same]
  | ok b =>
    obtain ⟨b, h_b⟩ := h.exists_ok h_x
    obtain ⟨c, h_c, -⟩ := (h_follows i).value (b i) (h_b i)
    have h_R : ∀ k, R (after (x k) (arenas k)) (b k) c := fun k => by
      obtain ⟨c', h_c', h_R⟩ := (h_follows k).value (b k) (h_b k)
      cases h_c.symm.trans h_c'
      exact h_R
    have h_rest := h_f _ b c (fun k => (h_follows k).grows) (fun k => (h_follows k).sound) h_R
    rw [(bind_of_ok (h_b i)).1] at h_e
    rw [(bind_of_ok (h_b j)).1]
    exact h_rest i j e h_e

/-- A sequence of which only the first step may fail. -/
theorem bind_succeeds (h : FailsAlike arenas x) (h_f : ∀ i b arena, Succeeds (f i b) arena) :
    FailsAlike arenas fun i => x i >>= f i := by
  intro i j e h_e
  cases h_x : result (x i) (arenas i) with
  | error e' =>
    have h_same := (bind_of_error (f := f i) h_x).1.symm.trans h_e
    rw [(bind_of_error (h i j e' h_x)).1, h_same]
  | ok b =>
    rw [(bind_of_ok h_x).1] at h_e
    exact absurd (h_f i b _) (not_succeeds_iff.mpr ⟨e, h_e⟩)

theorem map (h : FailsAlike arenas x) (g : β → α) : FailsAlike arenas fun i => g <$> x i := by
  simp only [map_eq_pure_bind]
  exact h.bind_succeeds fun _ b _ => ⟨g b, rfl⟩

/-- What is read in the tables is the same everywhere. -/
theorem bind_read {e : Except Error β} (h_f : ∀ b, e = .ok b → FailsAlike arenas fun i => f i b) :
    FailsAlike arenas fun i => liftM e >>= f i := by
  cases h_e : e with
  | ok b => exact h_f b h_e
  | error error => exact fun _ _ _ h_error => h_error

/-- Looking at the arena does not fail. -/
theorem bind_get {f : ι → Arena → Resolving β} (h : FailsAlike arenas fun i => f i (arenas i)) :
    FailsAlike arenas fun i => get >>= f i :=
  h

/-- **Lists.** Each element gives ids for the same term, so that the next one fails alike. -/
theorem mapM {f : ι → α → Resolving β} {g : α → Meaning γ} {R : Arena → β → γ → Prop}
    (h_sound : ∀ i, (arenas i).Sound m) (as : List α)
    (h_follows : ∀ a ∈ as, ∀ i arena', arenas i ≤ arena' → arena'.Sound m →
      Follows m arena' (f i a) (g a) R)
    (h_f : ∀ a ∈ as, ∀ arenas' : ι → Arena, (∀ i, arenas i ≤ arenas' i) →
      (∀ i, (arenas' i).Sound m) → FailsAlike arenas' fun i => f i a) :
    FailsAlike arenas fun i => as.mapM (f i) := by
  induction as generalizing arenas with
  | nil => exact pure fun _ => []
  | cons a as ih =>
    simp only [List.mapM_cons]
    have h_first := h_f a List.mem_cons_self arenas (fun _ => le_refl _) h_sound
    refine h_first.bind
      (fun i => h_follows a List.mem_cons_self i _ (le_refl _) (h_sound i))
      fun arenas' b _ h_le h_sound' _ => ?_
    refine bind_succeeds ?_ fun i bs _ => ⟨b i :: bs, rfl⟩
    refine ih h_sound' (fun a' h_a' i arena' h_le' => ?_) fun a' h_a' arenas'' h_le' => ?_
    · exact h_follows a' (List.mem_cons_of_mem a h_a') i arena' (le_trans (h_le i) h_le')
    · exact h_f a' (List.mem_cons_of_mem a h_a') arenas'' fun i => le_trans (h_le i) (h_le' i)

end FailsAlike

/-! ### Definitions -/

section Definitions

variable {row : TypeDefinition} {links index : Nat}

theorem failsAlike_openParameter (row : GenericParameter) (ofMethod : Bool) :
    FailsAlike arenas fun _ => openParameter m row ofMethod :=
  .bind_read fun _ _ => .of_succeeds fun _ => ⟨_, rfl⟩

theorem failsAlike_create {outer : Option Lineage} {declaring : ι → Option ClassId}
    (h_sound : ∀ i, (arenas i).Sound m)
    (h_encloses : ∀ i, (arenas i).Encloses outer (declaring i))
    (h_around : ∀ around, outer = some around → m.Traces around.frame.definition around) :
    FailsAlike arenas fun i => create m index row (declaring i) := by
  unfold create
  refine .bind_read fun name _ => .bind_get ?_
  -- the namespace is that of the chain around
  have h_namespace (i : ι) :=
    (namespaceName_of_encloses (h_sound i) (h_encloses i) h_around).1
  simp only [h_namespace]
  refine .bind_read fun namespaceName _ => .bind_read fun parameters _ => ?_
  refine FailsAlike.bind_succeeds ?_ fun _ _ _ => ⟨_, rfl⟩
  exact .mapM h_sound parameters
    (fun parameter _ _ _ _ h_sound' => openParameter_follows h_sound' parameter)
    fun parameter _ _ _ _ => failsAlike_openParameter parameter false

theorem failsAlike_declaringClass {resolve : ι → Nat → Resolving ClassId}
    (h_resolve : ∀ outer, m.Declares row outer → FailsAlike arenas fun i => resolve i outer) :
    FailsAlike arenas fun i => declaringClass m (resolve i) row := by
  unfold declaringClass
  split
  · exact .pure fun _ => none
  next index h_index =>
    refine .bind_read fun descriptor h_descriptor => .bind_read fun outer h_outer => ?_
    exact (h_resolve outer ⟨index, descriptor, h_index, h_descriptor, h_outer⟩).map some

/-- Creating a definition after the class around it, which is resolved alike. -/
theorem failsAlike_createWithin (h_sound : ∀ i, (arenas i).Sound m)
    (h_outer : ∀ row outer, m.typeDefinition index = .ok row → m.Declares row outer →
      FailsAlike arenas fun _ => definitionWithin m links outer) :
    FailsAlike arenas fun _ => (do
      let row ← m.typeDefinition index
      let declaring ← declaringClass m (definitionWithin m links) row
      create m index row declaring) := by
  refine .bind_read fun row h_row => ?_
  refine (failsAlike_declaringClass fun outer => h_outer row outer h_row).bind
    (fun i => (declaringClass_follows (h_sound i)
      (fun outer => definitionWithin_follows (h_sound i) links outer) row).with_value)
    fun arenas' declaring outer h_le h_sound' h_declaring => ?_
  intro i
  refine failsAlike_create h_sound' (fun j => (h_declaring j).2) (fun around h_some => ?_) i
  -- the class around shows the chain around
  have h_value := (h_declaring i).1
  rw [Meaning.read_value_eq_some_iff, Metadata.outerLineage_eq_ok_iff] at h_value
  rcases h_value with ⟨-, rfl⟩ | ⟨o, around', -, h_traced, rfl⟩
  · cases h_some
  · cases h_some
    rw [Metadata.lineage_eq_ok_iff] at h_traced
    rwa [h_traced.frame_definition]

/-- What one arena refuses although it grants what has a chain is in no arena. -/
theorem find?_eq_none_of_refused {i : ι} (h_sound : ∀ i, (arenas i).Sound m)
    (h_grants : ∀ i, (arenas i).Grants m links index) {e : Error}
    (h_e : result (definitionWithin m links index) (arenas i) = .error e) (j : ι) :
    (arenas j).find? (.ofDefinition index) = none := by
  refine Option.eq_none_iff_forall_ne_some.mpr fun id h_id => not_succeeds_iff.mpr ⟨e, h_e⟩ ?_
  obtain ⟨_, lineage, -, -, h_traces, -⟩ := (h_sound j).shows_of_definition h_id
  exact (definitionWithin_succeeds_iff (h_sound i)).mpr
    ⟨lineage, h_traces, h_grants i 0 index lineage (Nat.zero_le _) (.self index) h_traces⟩

/-- **Definitions**, by induction on the number of types that may still be followed outwards. -/
theorem failsAlike_definitionWithin (h_sound : ∀ i, (arenas i).Sound m)
    (h_grants : ∀ i, (arenas i).Grants m links index) :
    FailsAlike arenas fun _ => definitionWithin m links index := by
  induction links generalizing index with
  | zero =>
    intro i j e h_e
    have h_new := find?_eq_none_of_refused h_sound h_grants h_e
    rw [definitionWithin, result_get_bind, h_new] at h_e ⊢
    exact h_e
  | succ links ih =>
    intro i j e h_e
    have h_new := find?_eq_none_of_refused h_sound h_grants h_e
    have h_create := failsAlike_createWithin h_sound fun row outer h_row h_inside =>
      ih fun k => (h_grants k).outer h_row h_inside
    rw [definitionWithin, result_get_bind, h_new] at h_e ⊢
    exact h_create i j e h_e

end Definitions

/-! ### References -/

/-- Arenas in which every definition with a chain is there. -/
structure Settled (m : Metadata) (arenas : ι → Arena) : Prop where
  sound : ∀ i, (arenas i).Sound m
  seeded : ∀ i, (arenas i).Seeded m

theorem Settled.grow {arenas' : ι → Arena} (h : Settled m arenas)
    (h_le : ∀ i, arenas i ≤ arenas' i) (h_sound : ∀ i, (arenas' i).Sound m) : Settled m arenas' :=
  ⟨h_sound, fun i => (h.seeded i).mono (h_le i)⟩

theorem failsAlike_definition (h : Settled m arenas) (index : Nat) :
    FailsAlike arenas fun _ => definition m index :=
  failsAlike_definitionWithin h.sound fun i => (h.seeded i).grants _ index

section Reference

variable (maxDepth : Nat) {terms : TermScope} {scope : ι → GenericScope}

/-- An instantiation whose definition has a chain is meant to be something. -/
theorem exists_instantiate_value {k : KeyTerm} {lineage : Lineage}
    (h : (Meaning.definition m k.definition).value = some lineage) :
    ∃ t, (Meaning.instantiate m maxDepth k).value = some t := by
  rw [Meaning.instantiate, Meaning.classOf, Meaning.bind_of_value h]
  dsimp only
  split
  · exact ⟨_, rfl⟩
  · split
    · exact ⟨_, rfl⟩
    · exact ⟨k.type, (Meaning.bind_value_eq_some_iff).mpr
        ⟨k, Meaning.bind_value_eq_some_iff.mpr ⟨lineage, h, rfl⟩, rfl⟩⟩

/-- An instantiation is refused for its definition only. -/
theorem failsAlike_instantiate (h : Settled m arenas) {k : KeyTerm} {key : ι → ClassKey}
    (h_k : ∀ i, (arenas i).UnfoldsKey k (key i)) :
    FailsAlike arenas fun i => instantiate m maxDepth (key i) := by
  -- what the definition is refused with, the instantiation is refused with
  have h_first (i : ι) {e : Error}
      (h_x : result (definition m k.definition) (arenas i) = .error e) :
      result (instantiate m maxDepth (key i)) (arenas i) = .error e := by
    unfold instantiate
    rw [(h_k i).1]
    exact (bind_of_error h_x).1
  intro i j e h_e
  cases h_x : result (definition m k.definition) (arenas i) with
  | ok id =>
    -- then nothing else could go wrong
    have h_none := (instantiate_follows maxDepth (h.sound i) (h_k i)).fails (h.seeded i) e h_e
    obtain ⟨lineage, h_lineage, -⟩ := (definition_follows (h.sound i) k.definition).value id h_x
    obtain ⟨t, h_t⟩ := exists_instantiate_value maxDepth h_lineage
    cases h_none.symm.trans h_t
  | error e' =>
    cases (h_first i h_x).symm.trans h_e
    exact h_first j (failsAlike_definition h k.definition i j e h_x)

theorem failsAlike_parameter (h_scope : ∀ i, (arenas i).UnfoldsScope terms (scope i))
    (index : Nat) (ofMethod : Bool) :
    FailsAlike arenas fun i => parameter m (scope i) index ofMethod := by
  refine .bind_read fun row _ => ?_
  have h_arg (i : ι) := ((h_scope i).args ofMethod).getElem? row.number
  -- either all scopes have an argument or none has one
  cases h_t : (terms.args ofMethod)[row.number]? with
  | none =>
    have h_open (i : ι) : ((scope i).args ofMethod)[row.number]? = none := by
      rcases h_arg i with ⟨h_id, -⟩ | ⟨_, t, -, h_some, -⟩
      · exact h_id
      · cases h_t.symm.trans h_some
    simp only [h_open]
    exact failsAlike_openParameter row ofMethod
  | some t =>
    refine .of_succeeds fun i => ?_
    rcases h_arg i with ⟨-, h_none⟩ | ⟨id, _, h_id, -, -⟩
    · cases h_t.symm.trans h_none
    · rw [h_id]
      exact ⟨id, rfl⟩

/-- What resolutions of addresses have to do: in all larger arenas they follow one meaning and fail
alike. -/
structure ResolveAlike (m : Metadata) (arenas : ι → Arena) (resolve : ι → Nat → Resolving TypeId)
    (meaning : Nat → Meaning TypeTerm) : Prop where
  follows : ∀ i, ResolvesAs m (arenas i) (resolve i) meaning
  failsAlike : ∀ address (arenas' : ι → Arena), (∀ i, arenas i ≤ arenas' i) → Settled m arenas' →
    FailsAlike arenas' fun i => resolve i address

theorem ResolveAlike.mono {arenas' : ι → Arena} {resolve : ι → Nat → Resolving TypeId}
    {meaning : Nat → Meaning TypeTerm} (h : ResolveAlike m arenas resolve meaning)
    (h_le : ∀ i, arenas i ≤ arenas' i) : ResolveAlike m arenas' resolve meaning where
  follows i := (h.follows i).mono (h_le i)
  failsAlike address arenas'' h_le' :=
    h.failsAlike address arenas'' fun i => le_trans (h_le i) (h_le' i)

section Addresses

variable {resolve : ι → Nat → Resolving TypeId} {meaning : Nat → Meaning TypeTerm}
  (h : Settled m arenas) (h_resolve : ResolveAlike m arenas resolve meaning)

include h h_resolve

theorem failsAlike_arguments (address : Nat) :
    FailsAlike arenas fun i => arguments m (resolve i) address := by
  unfold arguments
  split
  · exact .pure fun _ => []
  · refine .bind_read fun inst _ => .bind_read fun addresses _ => ?_
    exact .mapM h.sound addresses (fun address _ i => h_resolve.follows i address)
      fun address _ arenas' h_le h_sound =>
        h_resolve.failsAlike address arenas' h_le (h.grow h_le h_sound)

theorem failsAlike_instantiation (address : Nat) :
    FailsAlike arenas fun i => instantiation m maxDepth (resolve i) address := by
  refine .bind_read fun generic _ => .bind_read fun row _ => ?_
  refine (failsAlike_arguments h h_resolve generic.classInst).bind
    (fun i => arguments_follows (h.sound i) (h_resolve.follows i) generic.classInst)
    fun arenas₁ classIds classArgs h_le₁ h_sound₁ h_class => ?_
  have h₁ := h.grow h_le₁ h_sound₁
  have h_resolve₁ := h_resolve.mono h_le₁
  refine (failsAlike_arguments h₁ h_resolve₁ generic.methodInst).bind
    (fun i => arguments_follows (h_sound₁ i) (h_resolve₁.follows i) generic.methodInst)
    fun arenas₂ methodIds methodArgs h_le₂ h_sound₂ h_method => ?_
  exact failsAlike_instantiate maxDepth (k := ⟨row, classArgs, methodArgs⟩)
    (h₁.grow h_le₂ h_sound₂) fun i => ⟨rfl, (h_class i).mono (h_le₂ i), h_method i⟩

theorem failsAlike_payload (h_scope : ∀ i, (arenas i).UnfoldsScope terms (scope i))
    (d : Descriptor) :
    FailsAlike arenas fun i => payload m maxDepth (scope i) (resolve i) d := by
  unfold payload
  split
  · exact .of_succeeds fun _ => ⟨_, rfl⟩
  cases d.payload with
  | none => exact .of_succeeds fun _ => ⟨_, rfl⟩
  | definition row => exact (failsAlike_definition h row).bind_succeeds fun _ _ _ => ⟨_, rfl⟩
  | element address =>
    refine (h_resolve.failsAlike address arenas (fun _ => le_refl _) h).bind_succeeds
      fun i element arena => ?_
    cases d.kind <;> exact ⟨_, rfl⟩
  | array address =>
    exact .bind_read fun shape _ =>
      (h_resolve.failsAlike shape.element arenas (fun _ => le_refl _) h).bind_succeeds
        fun _ _ _ => ⟨_, rfl⟩
  | parameter index => exact failsAlike_parameter h_scope index _
  | instantiation address => exact failsAlike_instantiation maxDepth h h_resolve address

end Addresses

/-- **Descriptors**, by induction on how deeply they may nest. -/
theorem failsAlike_descriptorWithin (h : Settled m arenas)
    (h_scope : ∀ i, (arenas i).UnfoldsScope terms (scope i)) (levels : Nat) (d : Descriptor) :
    FailsAlike arenas fun i => descriptorWithin m maxDepth (scope i) levels d := by
  induction levels generalizing arenas d with
  | zero => exact .throw _
  | succ levels ih =>
    have h_resolve : ResolveAlike m arenas
        (fun i => atAddress m (descriptorWithin m maxDepth (scope i) levels))
        (Meaning.atAddress m (Meaning.descriptorWithin m maxDepth terms levels)) :=
      { follows := fun i address arena' h_le h_sound => .bind_read h_sound fun d' _ =>
          descriptorWithin_follows maxDepth h_sound ((h_scope i).mono h_le) levels d'
        failsAlike := fun address arenas' h_le h' => .bind_read fun d' _ =>
          ih h' (fun i => (h_scope i).mono (h_le i)) d' }
    refine (failsAlike_payload maxDepth h h_resolve h_scope d).bind_succeeds fun i id arena => ?_
    split <;> exact ⟨_, rfl⟩

theorem failsAlike_descriptor (h : Settled m arenas)
    (h_scope : ∀ i, (arenas i).UnfoldsScope terms (scope i)) (d : Descriptor) :
    FailsAlike arenas fun i => descriptor m maxDepth (scope i) d :=
  failsAlike_descriptorWithin maxDepth h h_scope _ d

theorem failsAlike_typeIndex (h : Settled m arenas)
    (h_scope : ∀ i, (arenas i).UnfoldsScope terms (scope i)) (index : Nat) :
    FailsAlike arenas fun i => typeIndex m maxDepth (scope i) index :=
  .bind_read fun d _ => failsAlike_descriptor maxDepth h h_scope d

end Reference

/-! ### Members -/

section Members

variable (maxDepth : Nat) {terms : TermScope} {scope : ι → GenericScope} {owner : ι → ClassId}
  {k : KeyTerm} {c : ι → ResolvedClass}

theorem failsAlike_field (h : Settled m arenas)
    (h_scope : ∀ i, (arenas i).UnfoldsScope terms (scope i)) (row : FieldDefinition) :
    FailsAlike arenas fun i => field m maxDepth (scope i) (owner i) row := by
  refine .bind_read fun name _ => ?_
  cases row.typeIndex with
  | none => exact .throw _
  | some index =>
    exact .bind_read fun d _ =>
      (failsAlike_descriptor maxDepth h h_scope d).bind_succeeds fun _ _ _ => ⟨_, rfl⟩

theorem failsAlike_fields (h : Settled m arenas)
    (h_scope : ∀ i, (arenas i).UnfoldsScope terms (scope i))
    (h_owner : ∀ i, (arenas i).UnfoldsClass k (owner i)) (row : TypeDefinition) :
    FailsAlike arenas fun i => fields m maxDepth (scope i) (owner i) row := by
  refine .bind_read fun rows _ => FailsAlike.bind_succeeds ?_ fun _ _ _ => ⟨_, rfl⟩
  exact .mapM h.sound rows
    (fun row _ i _ h_le h_sound =>
      field_follows maxDepth h_sound ((h_scope i).mono h_le) ((h_owner i).mono h_le) row)
    fun row _ _ h_le h_sound =>
      failsAlike_field maxDepth (h.grow h_le h_sound) (fun i => (h_scope i).mono (h_le i)) row

theorem failsAlike_methodParameter (h : Settled m arenas)
    (h_scope : ∀ i, (arenas i).UnfoldsScope terms (scope i)) (row : ParameterDefinition) :
    FailsAlike arenas fun i => methodParameter m maxDepth (scope i) row := by
  refine .bind_read fun name _ => ?_
  cases row.typeIndex with
  | none => exact .throw _
  | some index =>
    exact (failsAlike_typeIndex maxDepth h h_scope index).bind_succeeds fun _ _ _ => ⟨_, rfl⟩

theorem failsAlike_parameters (h : Settled m arenas)
    (h_scope : ∀ i, (arenas i).UnfoldsScope terms (scope i)) (row : MethodDefinition) :
    FailsAlike arenas fun i => parameters m maxDepth (scope i) row := by
  exact .bind_read fun rows _ => .mapM h.sound rows
    (fun row _ i _ h_le h_sound =>
      methodParameter_follows maxDepth h_sound ((h_scope i).mono h_le) row)
    fun row _ _ h_le h_sound =>
      failsAlike_methodParameter maxDepth (h.grow h_le h_sound)
        (fun i => (h_scope i).mono (h_le i)) row

theorem failsAlike_returnType (h : Settled m arenas)
    (h_scope : ∀ i, (arenas i).UnfoldsScope terms (scope i)) (index : Option Nat) :
    FailsAlike arenas fun i => returnType m maxDepth (scope i) index := by
  cases index with
  | none => exact .of_succeeds fun _ => ⟨_, rfl⟩
  | some index => exact failsAlike_typeIndex maxDepth h h_scope index

theorem failsAlike_method (h : Settled m arenas)
    (h_scope : ∀ i, (arenas i).UnfoldsScope terms (scope i)) (row : MethodDefinition) :
    FailsAlike arenas fun i => method m maxDepth (scope i) (owner i) (c i) row := by
  refine .bind_read fun name _ => ?_
  refine (failsAlike_returnType maxDepth h h_scope row.returnType).bind
    (fun i => returnType_follows maxDepth (h.sound i) (h_scope i) row.returnType)
    fun arenas' _ _ h_le h_sound _ => ?_
  exact (failsAlike_parameters maxDepth (h.grow h_le h_sound)
    (fun i => (h_scope i).mono (h_le i)) row).bind_succeeds fun _ _ _ => ⟨_, rfl⟩

theorem failsAlike_methods (h : Settled m arenas)
    (h_scope : ∀ i, (arenas i).UnfoldsScope terms (scope i))
    (h_owner : ∀ i, (arenas i).UnfoldsClass k (owner i))
    (h_inst : ∀ i, (c i).isInstantiation = k.isInstantiation)
    (h_image : ∀ i, (c i).image = m.imageOf k.definition) (row : TypeDefinition) :
    FailsAlike arenas fun i => methods m maxDepth (scope i) (owner i) (c i) row := by
  refine .bind_read fun rows _ => FailsAlike.bind_succeeds ?_ fun _ _ _ => ⟨_, rfl⟩
  exact .mapM h.sound rows
    (fun row _ i _ h_le h_sound => method_follows maxDepth h_sound ((h_scope i).mono h_le)
      ((h_owner i).mono h_le) (h_inst i) (h_image i) row)
    fun row _ _ h_le h_sound =>
      failsAlike_method maxDepth (h.grow h_le h_sound) (fun i => (h_scope i).mono (h_le i)) row

/-- Whether a definition is declared by the class at hand can be seen by its chain. -/
theorem failsAlike_nestedClass (h : Settled m arenas)
    (h_owner : ∀ i, (arenas i).find? (.ofDefinition k.definition) = some (owner i)) (index : Nat)
    (entry : Int) : FailsAlike arenas fun i => nestedClass m (owner i) index entry := by
  unfold nestedClass
  cases toIndex? entry with
  | none => exact .throw _
  | some position =>
    refine (failsAlike_definition h position).bind
      (fun i => definition_follows (h.sound i) position)
      fun arenas' id lineage h_le h_sound h_id => .bind_get ?_
    have h_iff (i : ι) := declaring_eq_some_iff (h_sound i)
      (Arena.find?_mono (h_le i) (h_owner i)) (h_id i)
    simp only [h_iff]
    split
    · exact .pure id
    · exact .throw _

theorem failsAlike_nested (h : Settled m arenas)
    (h_owner : ∀ i, (arenas i).UnfoldsClass k (owner i))
    (h_inst : ∀ i, (c i).isInstantiation = k.isInstantiation)
    (h_definition : ∀ i, (c i).definition = k.definition) (row : TypeDefinition) :
    FailsAlike arenas fun i => nested m (owner i) (c i) row := by
  unfold nested
  simp only [h_inst, h_definition]
  split
  next => exact .pure fun _ => []
  next h_plain =>
    -- a class without arguments is that of its definition
    have h_found (i : ι) := Arena.find?_of_unfoldsClass (h_owner i) (Bool.not_eq_true _ ▸ h_plain)
    exact .bind_read fun rows _ => .mapM h.sound rows
      (fun entry _ i _ h_le h_sound =>
        nestedClass_follows h_sound (Arena.find?_mono h_le (h_found i)) k.definition entry)
      fun entry _ _ h_le h_sound => failsAlike_nestedClass (h.grow h_le h_sound)
        (fun i => Arena.find?_mono (h_le i) (h_found i)) k.definition entry

theorem failsAlike_underlying (h : Settled m arenas)
    (h_scope : ∀ i, (arenas i).UnfoldsScope terms (scope i)) {row : TypeDefinition}
    (h_enum : ∀ i, (c i).isEnum = row.isEnum) :
    FailsAlike arenas fun i => underlying m maxDepth (scope i) (c i) row := by
  unfold underlying
  cases row.elementTypeIndex with
  | none => exact .pure fun _ => none
  | some index =>
    simp only [h_enum]
    split
    · exact (failsAlike_typeIndex maxDepth h h_scope index).map some
    · exact .pure fun _ => none

/-- **Members.** The members of the class for one key. -/
theorem failsAlike_members (h : Settled m arenas)
    (h_c : ∀ i, (arenas i).class? (owner i) = some (c i))
    (h_k : ∀ i, (arenas i).UnfoldsKey k (c i).key) :
    FailsAlike arenas fun i => members m maxDepth (owner i) (c i) := by
  have h_inst (i : ι) : (c i).isInstantiation = k.isInstantiation := (h_k i).isInstantiation_eq
  have h_owner (i : ι) : (arenas i).UnfoldsClass k (owner i) := ⟨c i, h_c i, h_k i⟩
  have h_definition (i : ι) : (c i).definition = k.definition := (h_k i).1
  have h_shown (i : ι) := (h.sound i).shows_of_key (h_c i) (h_k i)
  have h_image (i : ι) : (c i).image = m.imageOf k.definition := by
    obtain ⟨_, -, h_shows⟩ := h_shown i
    exact h_shows.image
  unfold members
  simp only [h_definition]
  refine .bind_read fun row h_row => ?_
  have h_enum (i : ι) : (c i).isEnum = row.isEnum := by
    obtain ⟨_, h_traces, h_shows⟩ := h_shown i
    rw [h_traces.typeDefinition_eq] at h_row
    rw [h_shows.isEnum, Except.ok.inj h_row]
  refine (failsAlike_underlying maxDepth h (fun i => (h_k i).scope) h_enum).bind
    (fun i => underlying_follows maxDepth (h.sound i) (h_k i).scope (h_enum i))
    fun arenas₁ _ _ h_le₁ h_sound₁ _ => ?_
  have h₁ := h.grow h_le₁ h_sound₁
  have h_scope₁ (i : ι) := (h_k i).scope.mono (h_le₁ i)
  have h_owner₁ (i : ι) := (h_owner i).mono (h_le₁ i)
  refine (failsAlike_fields maxDepth h₁ h_scope₁ h_owner₁ row).bind
    (fun i => fields_follows maxDepth (h_sound₁ i) (h_scope₁ i) (h_owner₁ i) row)
    fun arenas₂ _ _ h_le₂ h_sound₂ _ => ?_
  have h₂ := h₁.grow h_le₂ h_sound₂
  have h_scope₂ (i : ι) := (h_scope₁ i).mono (h_le₂ i)
  have h_owner₂ (i : ι) := (h_owner₁ i).mono (h_le₂ i)
  refine (failsAlike_methods maxDepth h₂ h_scope₂ h_owner₂ h_inst h_image row).bind
    (fun i => methods_follows maxDepth (h_sound₂ i) (h_scope₂ i) (h_owner₂ i) (h_inst i)
      (h_image i) row)
    fun arenas₃ _ _ h_le₃ h_sound₃ _ => ?_
  exact (failsAlike_nested (h₂.grow h_le₃ h_sound₃) (fun i => (h_owner₂ i).mono (h_le₃ i)) h_inst
    h_definition row).bind_succeeds fun _ _ _ => ⟨_, rfl⟩

/-- **Completion.** The classes for one key are completed everywhere or nowhere, and fail with the
same error. -/
theorem failsAlike_complete (h : Settled m arenas)
    (h_c : ∀ i, (arenas i).class? (owner i) = some (c i))
    (h_k : ∀ i, (arenas i).UnfoldsKey k (c i).key) :
    FailsAlike arenas fun i => complete m maxDepth (owner i) := by
  intro i j e h_e
  rw [complete_error_iff maxDepth (h_c i)] at h_e
  rw [complete_error_iff maxDepth (h_c j)]
  exact failsAlike_members maxDepth h h_c h_k i j e h_e

end Members

end Resolving
end GlobalMetadata
