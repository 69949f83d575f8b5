import GlobalMetadata.Proofs.Meaning

/-!
# Resolution follows the meaning

`Resolving.Follows` relates a step of resolution in an arena to a meaning. It has two halves.

* In every sound arena the arena after the step is sound, a value that the step gives is what the
  meaning says, and the only new instantiations are demanded ones.
* In a *seeded* arena, in which every definition that can have a class has one already, the step
  does exactly what the meaning says: it fails only if there is no value, all that is demanded is
  there afterwards, and as much is counted as cut off as the meaning says.

The second half fails without seeding, since a definition that is not there yet may be too deeply
nested to be created. Which definitions are there is the only thing about an arena that a step
depends on.

The rules follow the ways in which steps are put together, and there is one lemma for each step.
-/

namespace GlobalMetadata

/-- Every definition that has a chain has a class. -/
def Arena.Seeded (m : Metadata) (arena : Arena) : Prop :=
  ∀ definition lineage, m.Traces definition lineage →
    ∃ id, arena.find? (.ofDefinition definition) = some id

theorem Arena.Seeded.mono {m : Metadata} {arena arena' : Arena} (h : arena.Seeded m)
    (h_le : arena ≤ arena') : arena'.Seeded m := by
  intro definition lineage h_traces
  obtain ⟨id, h_id⟩ := h definition lineage h_traces
  exact ⟨id, find?_mono h_le h_id⟩

namespace Resolving

variable {α β γ δ : Type}

/-- A step does in an arena what a meaning says; `R` is what the two results have in common. -/
structure Follows (m : Metadata) (arena : Arena) (x : Resolving β) (y : Meaning γ)
    (R : Arena → β → γ → Prop) : Prop where
  grows : arena ≤ after x arena
  /-- The arena stays sound. -/
  sound : (after x arena).Sound m
  /-- Nothing but new classes without members is added. -/
  frame : ∀ id c, (after x arena).class? id = some c →
    arena.class? id = some c ∨ ¬ arena.HasClass id ∧ c.members = none
  /-- New instantiations are demanded ones. -/
  demanded : ∀ k, (after x arena).Holds k →
    arena.Holds k ∨ k.isInstantiation = false ∨ k ∈ y.demands
  /-- No more is cut off than is meant to be. -/
  bounded : (after x arena).truncated ≤ arena.truncated + y.cuts
  /-- What comes out is what is meant. -/
  value : ∀ b, result x arena = .ok b → ∃ c, y.value = some c ∧ R (after x arena) b c
  /-- The step fails only if nothing is meant. -/
  fails : arena.Seeded m → ∀ e, result x arena = .error e → y.value = none
  /-- What is demanded is there. -/
  meets : arena.Seeded m → ∀ k ∈ y.demands, (after x arena).Holds k
  /-- What is cut off is counted. -/
  counts : arena.Seeded m → (after x arena).truncated = arena.truncated + y.cuts

section Rules

variable {m : Metadata} {arena : Arena} {x : Resolving β} {y : Meaning γ}
  {R : Arena → β → γ → Prop}

/-- A step that leaves the arena alone and gives a value, where all that is demanded is there. -/
theorem Follows.stay (h : arena.Sound m) {b : β} {c : γ} (h_value : y.value = some c)
    (h_demands : ∀ k ∈ y.demands, arena.Holds k) (h_cuts : y.cuts = 0) (h_R : R arena b c) :
    Follows m arena (Pure.pure b) y R where
  grows := le_refl _
  sound := h
  frame _ _ h_c := .inl h_c
  demanded _ h_k := .inl h_k
  bounded := Nat.le_add_right _ _
  value _ h_b := by
    cases h_b
    exact ⟨c, h_value, h_R⟩
  fails _ _ h_e := by cases h_e
  meets _ := h_demands
  counts _ := by rw [h_cuts]; rfl

/-- A step that leaves the arena alone and gives a value. -/
theorem Follows.pure (h : arena.Sound m) {b : β} {c : γ} (h_R : R arena b c) :
    Follows m arena (Pure.pure b) (Pure.pure c) R :=
  .stay h rfl (fun _ h_k => absurd h_k List.not_mem_nil) rfl h_R

/-- A step that leaves the arena alone and fails, though something might be meant if the arena is
not seeded. -/
theorem Follows.refuse (h : arena.Sound m) (h_after : after x arena = arena) {e : Error}
    (h_result : result x arena = .error e) (h_demands : y.demands = []) (h_cuts : y.cuts = 0)
    (h_none : arena.Seeded m → y.value = none) : Follows m arena x y R := by
  constructor <;> simp only [h_after, h_result, h_demands, h_cuts]
  case grows => exact le_refl _
  case sound => exact h
  case frame => exact fun _ _ h_c => .inl h_c
  case demanded => exact fun _ h_k => .inl h_k
  case bounded => exact Nat.le_refl _
  case value => exact fun _ h_b => by cases h_b
  case fails => exact fun h_seeded _ _ => h_none h_seeded
  case meets => exact fun _ k h_k => absurd h_k List.not_mem_nil
  case counts => exact fun _ => rfl

/-- A step that leaves the arena alone and fails. -/
theorem Follows.nothing (h : arena.Sound m) (h_after : after x arena = arena) {e : Error}
    (h_result : result x arena = .error e) : Follows m arena x Meaning.nothing R :=
  .refuse h h_after h_result rfl rfl fun _ => rfl

theorem Follows.throw (h : arena.Sound m) (e : Error) :
    Follows m arena (MonadExcept.throw e : Resolving β) (Meaning.nothing : Meaning γ) R :=
  .nothing h rfl rfl

/-- What the results have in common may be weakened. -/
theorem Follows.weaken {S : Arena → β → γ → Prop} (h : Follows m arena x y R)
    (h_RS : ∀ b c, R (after x arena) b c → S (after x arena) b c) : Follows m arena x y S :=
  { h with
    value := fun b h_b => by
      obtain ⟨c, h_c, h_R⟩ := h.value b h_b
      exact ⟨c, h_c, h_RS b c h_R⟩ }

/-- What comes out is the value of the meaning. -/
theorem Follows.with_value (h : Follows m arena x y R) :
    Follows m arena x y fun arena' b c => y.value = some c ∧ R arena' b c :=
  { h with
    value := fun b h_b => by
      obtain ⟨c, h_c, h_R⟩ := h.value b h_b
      exact ⟨c, h_c, h_c, h_R⟩ }

/-- If the first step fails, the second one is not reached, though it may be meant. -/
theorem Follows.bind_of_error {f : β → Resolving α} {g : γ → Meaning δ}
    {S : Arena → α → δ → Prop} (h : Follows m arena x y R) {e : Error}
    (h_x : result x arena = .error e) : Follows m arena (x >>= f) (y >>= g) S := by
  obtain ⟨h_result, h_after⟩ := Resolving.bind_of_error (f := f) h_x
  -- in a seeded arena the first step fails only if nothing is meant
  have h_bind (h_seeded : arena.Seeded m) := Meaning.bind_of_none (f := g) (h.fails h_seeded e h_x)
  constructor <;> simp only [h_result, h_after]
  case grows => exact h.grows
  case sound => exact h.sound
  case frame => exact h.frame
  case demanded =>
    intro k h_k
    rcases h.demanded k h_k with h_old | h_definition | h_demand
    · exact .inl h_old
    · exact .inr (.inl h_definition)
    · exact .inr (.inr (Meaning.demands_bind_of_mem h_demand))
  case bounded => exact Nat.le_trans h.bounded (Nat.add_le_add_left (Meaning.cuts_le_bind y g) _)
  case value =>
    intro b h_b
    cases h_b
  case fails =>
    intro h_seeded _ _
    rw [h_bind h_seeded]
  case meets =>
    intro h_seeded
    rw [h_bind h_seeded]
    exact h.meets h_seeded
  case counts =>
    intro h_seeded
    rw [h_bind h_seeded]
    exact h.counts h_seeded

/-- If the first step gives a value, the second one takes over in the arena after it. -/
theorem Follows.bind_of_ok {f : β → Resolving α} {g : γ → Meaning δ} {S : Arena → α → δ → Prop}
    (h : Follows m arena x y R) {b : β} {c : γ} (h_x : result x arena = .ok b)
    (h_c : y.value = some c) (h' : Follows m (after x arena) (f b) (g c) S) :
    Follows m arena (x >>= f) (y >>= g) S := by
  obtain ⟨h_result, h_after⟩ := Resolving.bind_of_ok (f := f) h_x
  rw [Meaning.bind_of_value h_c]
  constructor <;> simp only [h_result, h_after]
  case grows => exact le_trans h.grows h'.grows
  case sound => exact h'.sound
  case frame =>
    intro id cls h_cls
    rcases h'.frame id cls h_cls with h_old | ⟨h_new, h_members⟩
    · exact h.frame id cls h_old
    · exact .inr ⟨fun h_has => h_new (h_has.mono h.grows), h_members⟩
  case demanded =>
    intro k h_k
    rcases h'.demanded k h_k with h_first | h_definition | h_demand
    · rcases h.demanded k h_first with h_old | h_definition | h_demand
      · exact .inl h_old
      · exact .inr (.inl h_definition)
      · exact .inr (.inr (List.mem_append_left _ h_demand))
    · exact .inr (.inl h_definition)
    · exact .inr (.inr (List.mem_append_right _ h_demand))
  case bounded =>
    rw [← Nat.add_assoc]
    exact Nat.le_trans h'.bounded (Nat.add_le_add_right h.bounded _)
  case value => exact h'.value
  case fails =>
    intro h_seeded
    exact h'.fails (h_seeded.mono h.grows)
  case meets =>
    intro h_seeded k h_k
    rcases List.mem_append.mp h_k with h_k | h_k
    · exact (h.meets h_seeded k h_k).mono h'.grows
    · exact h'.meets (h_seeded.mono h.grows) k h_k
  case counts =>
    intro h_seeded
    rw [h'.counts (h_seeded.mono h.grows), h.counts h_seeded, Nat.add_assoc]

/-- **Sequences.** If the first step gives a value, the second one has to follow what is meant in
every larger arena. -/
theorem Follows.bind {f : β → Resolving α} {g : γ → Meaning δ} {S : Arena → α → δ → Prop}
    (h : Follows m arena x y R)
    (h_f : ∀ arena' b c, arena ≤ arena' → arena'.Sound m → R arena' b c →
      Follows m arena' (f b) (g c) S) :
    Follows m arena (x >>= f) (y >>= g) S := by
  cases h_x : result x arena with
  | error e => exact h.bind_of_error h_x
  | ok b =>
    obtain ⟨c, h_c, h_R⟩ := h.value b h_x
    exact h.bind_of_ok h_x h_c (h_f _ b c h.grows h.sound h_R)

theorem Follows.map {S : Arena → α → δ → Prop} (h : Follows m arena x y R) {f : β → α} {g : γ → δ}
    (h_S : ∀ arena' b c, arena ≤ arena' → R arena' b c → S arena' (f b) (g c)) :
    Follows m arena (f <$> x) (g <$> y) S := by
  rw [map_eq_pure_bind, map_eq_pure_bind]
  exact h.bind fun arena' b c h_le h_sound h_R => .pure h_sound (h_S arena' b c h_le h_R)

/-- What both read first in the tables. -/
theorem Follows.bind_read {e : Except Error β} {f : β → Resolving α} {g : β → Meaning δ}
    {S : Arena → α → δ → Prop} (h : arena.Sound m)
    (h_f : ∀ b, e = .ok b → Follows m arena (f b) (g b) S) :
    Follows m arena (liftM e >>= f) (Meaning.read e >>= g) S := by
  cases h_e : e with
  | ok b =>
    -- both go on with what was read
    have h_read : Meaning.read (.ok b) >>= g = g b := pure_bind b g
    rw [h_read]
    exact h_f b h_e
  | error error => exact .nothing h rfl rfl

/-- Only what a step does in the arena at hand matters. -/
theorem Follows.congr {x' : Resolving β} (h : Follows m arena x y R)
    (h_result : result x' arena = result x arena) (h_after : after x' arena = after x arena) :
    Follows m arena x' y R := by
  constructor <;> simp only [h_result, h_after]
  case grows => exact h.grows
  case sound => exact h.sound
  case frame => exact h.frame
  case demanded => exact h.demanded
  case bounded => exact h.bounded
  case value => exact h.value
  case fails => exact h.fails
  case meets => exact h.meets
  case counts => exact h.counts

/-- Looking at the arena changes nothing. -/
theorem Follows.bind_get {f : Arena → Resolving β} (h : Follows m arena (f arena) y R) :
    Follows m arena (get >>= f) y R :=
  h.congr (result_get_bind arena f) (after_get_bind arena f)

/-- **Lists.** Each element gives what is meant by it, and keeps it. -/
theorem Follows.mapM {f : α → Resolving β} {g : α → Meaning γ} (h : arena.Sound m)
    (h_mono : ∀ arena' arena'' b c, arena' ≤ arena'' → R arena' b c → R arena'' b c) (as : List α)
    (h_f : ∀ a ∈ as, ∀ arena', arena ≤ arena' → arena'.Sound m → Follows m arena' (f a) (g a) R) :
    Follows m arena (as.mapM f) (as.mapM g) fun arena' bs cs =>
      List.Forall₂ (fun c b => R arena' b c) cs bs := by
  induction as generalizing arena with
  | nil => exact .pure h .nil
  | cons a as ih =>
    rw [List.mapM_cons, List.mapM_cons]
    -- what the first element gave holds of the larger arena, too
    refine (h_f a List.mem_cons_self arena (le_refl _) h).bind
      fun arena₁ b c h_le₁ h_sound₁ h_R => ?_
    refine (ih h_sound₁ fun a' h_a' arena' h_le' => ?_).bind
      fun arena₂ bs cs h_le₂ h_sound₂ h_bs => ?_
    · exact h_f a' (List.mem_cons_of_mem a h_a') arena' (le_trans h_le₁ h_le')
    · exact .pure h_sound₂ (.cons (h_mono _ _ _ _ h_le₂ h_R) h_bs)

end Rules

/-! ### Types and classes -/

section Creation

variable {m : Metadata} {arena : Arena}

/-- Interning a type whose parts are there, in place of any value. -/
theorem intern_follows_as {γ : Type} (h : arena.Sound m) (type : ResolvedType) (t : TypeTerm)
    (h_parts : arena.HasParts type) (h_t : arena.Spells type t) (v : γ) :
    Follows m arena (intern type) (pure v) fun arena' id v' => v' = v ∧ arena'.Unfolds t id where
  grows := arena.le_intern type
  sound := h.intern h_parts
  frame _ _ h_c := .inl h_c
  demanded k h_k := by
    obtain ⟨id, c, h_c, h_key⟩ := h_k
    exact .inl ⟨id, c, h_c, h.unfoldsKey_of_le h_c (arena.le_intern type) h_key⟩
  bounded := Nat.le_refl _
  value id h_id := by
    cases h_id
    refine ⟨v, rfl, rfl, ?_⟩
    -- spelling the type takes only ids that were there before
    exact (Arena.unfolds_of_type? (arena.type?_intern_self type)).mpr
      (h_t.mono (arena.le_intern type))
  fails _ _ h_e := by cases h_e
  meets _ k h_k := absurd h_k List.not_mem_nil
  counts _ := rfl

/-- Interning a type whose parts are there. -/
theorem intern_follows (h : arena.Sound m) (type : ResolvedType) (t : TypeTerm)
    (h_parts : arena.HasParts type) (h_t : arena.Spells type t) :
    Follows m arena (intern type) (pure t) fun arena' id t => arena'.Unfolds t id :=
  (intern_follows_as h type t h_parts h_t t).weaken fun _ _ ⟨h_same, h_id⟩ => h_same ▸ h_id

/-- The type of a class that is there. -/
theorem classType_follows (h : arena.Sound m) {key : ClassKey} {id : ClassId} {k : KeyTerm}
    (h_found : arena.find? key = some id) (h_k : arena.UnfoldsKey k key) :
    Follows m arena (classType id) (pure k.type) fun arena' id t => arena'.Unfolds t id := by
  obtain ⟨c, h_c, rfl⟩ := Arena.find?_eq_some_iff.mp h_found
  exact intern_follows h (.class id) k.type (Arena.hasClass_iff.mpr ⟨c, h_c⟩) ⟨c, h_c, h_k⟩

/-- Counting an instantiation that is cut off. -/
theorem truncate_follows (h : arena.Sound m) :
    Follows m arena (modify (·.truncate)) Meaning.cut fun _ _ _ => True where
  grows := arena.le_truncate
  sound := h.truncate
  frame _ _ h_c := .inl h_c
  demanded k h_k := by
    obtain ⟨id, c, h_c, h_key⟩ := h_k
    exact .inl ⟨id, c, h_c, h.unfoldsKey_of_le h_c arena.le_truncate h_key⟩
  bounded := Nat.le_refl _
  value _ _ := ⟨(), rfl, trivial⟩
  fails _ _ h_e := by cases h_e
  meets _ k h_k := absurd h_k List.not_mem_nil
  counts _ := rfl

/-- Inserting a class that shows what it should, under a key that is meant. -/
theorem insert_follows {γ : Type} (h : arena.Sound m) {c : ResolvedClass} {lineage : Lineage}
    {k : KeyTerm} (h_traces : m.Traces k.definition lineage) (h_shows : arena.Shows m lineage k c)
    (h_members : c.members = none) {y : Meaning γ} {v : γ} (h_value : y.value = some v)
    (h_demands : ∀ k' ∈ y.demands, k' = k) (h_new : k.isInstantiation = false ∨ k ∈ y.demands)
    (h_cuts : y.cuts = 0) :
    Follows m arena (insert c) y fun arena' id v' => arena'.find? c.key = some id ∧ v' = v := by
  have h_le := arena.le_insert c
  obtain ⟨c', h_c', h_key'⟩ := arena.class?_insert_self c
  have h_found : (arena.insert c).2.find? c.key = some (arena.insert c).1 :=
    Arena.find?_eq_some_iff.mpr ⟨c', h_c', h_key'⟩
  have h_holds : (arena.insert c).2.Holds k := Arena.holds_of_find? h_found (h_shows.key.mono h_le)
  constructor
  case grows => exact h_le
  case sound => exact h.insert h_traces h_shows
  case frame =>
    intro id cls h_cls
    rcases Arena.class?_insert_cases h_cls with h_old | ⟨h_absent, rfl⟩
    · exact .inl h_old
    · exact .inr ⟨h_absent, h_members⟩
  case demanded =>
    rintro k' ⟨id, cls, h_cls, h_k'⟩
    rcases Arena.class?_insert_cases h_cls with h_old | ⟨-, rfl⟩
    · exact .inl ⟨id, cls, h_old, h.unfoldsKey_of_le h_old h_le h_k'⟩
    · rw [h_k'.unique (h_shows.key.mono h_le)]
      exact .inr h_new
  case bounded => exact Nat.le_add_right _ _
  case value =>
    intro id h_id
    cases h_id
    exact ⟨v, h_value, h_found, rfl⟩
  case fails =>
    intro _ e h_e
    cases h_e
  case meets =>
    intro _ k' h_k'
    rw [h_demands k' h_k']
    exact h_holds
  case counts =>
    intro _
    rw [h_cuts]
    rfl

/-- The class that a step gives for a definition, with the chain of the definition. -/
def IsDefinition (m : Metadata) (index : Nat) (arena : Arena) (id : ClassId) (lineage : Lineage) :
    Prop :=
  m.Traces index lineage ∧ arena.find? (.ofDefinition index) = some id

/-- The class around a definition, which shows the chain around it. -/
theorem declaringClass_follows (h : arena.Sound m) {resolve : Nat → Resolving ClassId}
    (h_resolve : ∀ index,
      Follows m arena (resolve index) (Meaning.definition m index) (IsDefinition m index))
    (row : TypeDefinition) :
    Follows m arena (declaringClass m resolve row) (Meaning.read (m.outerLineage m.lineage row))
      fun arena' id outer => arena'.Encloses outer id := by
  unfold declaringClass Metadata.outerLineage
  cases row.declaringTypeIndex with
  | none => exact .pure h .top
  | some index =>
    simp only [Meaning.read_bind, Meaning.read_map]
    refine .bind_read h fun descriptor _ => .bind_read h fun outer _ => ?_
    refine (h_resolve outer).map fun arena' id around _ ⟨h_traces, h_id⟩ => ?_
    -- the chain around is that of the definition that was resolved
    rw [← h_traces.frame_definition] at h_id
    exact .nested h_id

/-- The namespace of the class around is that of the chain around. -/
theorem namespaceName_of_encloses (h : arena.Sound m) {outer : Option Lineage}
    {declaring : Option ClassId} (h_encloses : arena.Encloses outer declaring)
    (h_around : ∀ around, outer = some around → m.Traces around.frame.definition around) :
    (declaring >>= arena.class?).map (·.namespaceName) = outer.map (·.namespaceName) ∧
      (declaring >>= arena.class?).map (·.qualifiedName) = outer.map (·.qualifiedName) := by
  cases h_encloses with
  | top => exact ⟨rfl, rfl⟩
  | @nested around id h_found =>
    -- the class around shows its own chain
    obtain ⟨c, lineage, h_c, -, h_traces, h_shows⟩ := h.shows_of_definition h_found
    obtain rfl := h_traces.unique (h_around around rfl)
    show (arena.class? id).map _ = _ ∧ (arena.class? id).map _ = _
    rw [h_c]
    exact ⟨congrArg some h_shows.namespaceName, congrArg some h_shows.qualifiedName⟩

/-- An open parameter of a definition, next to its position and its name. -/
theorem openParameter_follows (h : arena.Sound m) (parameter : GenericParameter) :
    Follows m arena (openParameter m parameter false)
      (Meaning.read do return (parameter.number, ← m.string parameter.nameIndex))
      fun arena' id pair => arena'.Unfolds (.parameter pair.1 false pair.2) id := by
  rw [openParameter, Meaning.read_bind]
  refine .bind_read h fun name _ => ?_
  refine (intern_follows_as h (.parameter parameter.number false name)
    (.parameter parameter.number false name) trivial ⟨rfl, rfl, rfl⟩ _).weaken ?_
  rintro id _ ⟨rfl, h_id⟩
  exact h_id

/-- The class that is created for a definition shows the chain it is created from. -/
theorem shows_created {index : Nat} {row : TypeDefinition} {outer : Option Lineage}
    {declaring : Option ClassId} {name namespaceName : String} {parameters : List (Nat × String)}
    {ids : List TypeId} (h_encloses : arena.Encloses outer declaring)
    (h_namespace : m.namespaceOf row (outer.map (·.namespaceName)) = .ok namespaceName)
    (h_args : arena.UnfoldsAll (Frame.mk index row name parameters).openArgs ids) :
    arena.Shows m (.make namespaceName ⟨index, row, name, parameters⟩ outer) (.ofDefinition index)
      { key := .ofDefinition index
        image := m.imageOf index
        namespaceName := namespaceName
        name := name
        qualifiedName := Name.qualified namespaceName (outer.map (·.qualifiedName)) name
        declaring := declaring
        genericArgs := ids
        flags := row.attributes
        isValueType := row.isValueType
        isEnum := row.isEnum
        token := row.token
        depth := 0
        members := none } := by
  obtain ⟨h_shown, h_path⟩ := Metadata.namespaceName_make ⟨index, row, name, parameters⟩ h_namespace
  constructor
  case key => exact Arena.unfoldsKey_ofDefinition.mpr rfl
  case namespaceName => exact h_shown.symm
  case qualifiedName => exact h_path.symm
  case declaring =>
    rw [Lineage.outer?_make]
    exact h_encloses
  case genericArgs =>
    rw [Lineage.frame_make]
    exact h_args
  case image | depth => rfl
  all_goals rw [Lineage.frame_make]

/-- Creating the class of a definition after that of the type around it. -/
theorem create_follows (h : arena.Sound m) {index : Nat} {row : TypeDefinition}
    {outer : Option Lineage} {declaring : Option ClassId}
    (h_encloses : arena.Encloses outer declaring)
    (h_around : ∀ around, outer = some around → m.Traces around.frame.definition around)
    (h_made : ∀ lineage, m.lineageOf index row outer = .ok lineage → m.Traces index lineage) :
    Follows m arena (create m index row declaring) (Meaning.read (m.lineageOf index row outer))
      (IsDefinition m index) := by
  obtain ⟨h_shown, h_path⟩ := namespaceName_of_encloses h h_encloses h_around
  unfold create
  rw [Metadata.lineageOf, Meaning.read_bind]
  refine .bind_read h fun name h_name => .bind_get ?_
  dsimp only
  rw [h_shown, h_path, Meaning.read_bind]
  refine .bind_read h fun namespaceName h_namespace => ?_
  rw [Meaning.read_bind]
  refine .bind_read h fun rows h_rows => ?_
  rw [Meaning.read_bind, Meaning.read_mapM]
  refine Follows.bind (Follows.with_value (Follows.mapM (R := fun arena' id parameter =>
    arena'.Unfolds (.parameter parameter.1 false parameter.2) id) h ?_ rows ?_)) ?_
  · exact fun _ _ _ _ h_le h_t => h_t.mono h_le
  · exact fun parameter _ _ _ h_sound => openParameter_follows h_sound parameter
  · intro arena' ids parameters h_le h_sound ⟨h_value, h_ids⟩
    rw [← Meaning.read_mapM, Meaning.read_value_eq_some_iff] at h_value
    -- the chain has been read along the way
    have h_traces := h_made _ (Metadata.lineageOf_eq_ok h_name h_namespace h_rows h_value)
    have h_args : arena'.UnfoldsAll (Frame.mk index row name parameters).openArgs ids := by
      rw [Arena.unfoldsAll_iff, Frame.openArgs, List.forall₂_map_left_iff]
      exact h_ids
    have h_shows := shows_created (h_encloses.mono h_le) h_namespace h_args
    refine (insert_follows h_sound (k := .ofDefinition index) h_traces h_shows rfl rfl ?_
      (.inl rfl) rfl).weaken ?_
    · exact fun _ h_k => absurd h_k List.not_mem_nil
    · rintro id _ ⟨h_id, rfl⟩
      exact ⟨h_traces, h_id⟩

/-- A class that is there already. -/
theorem found_follows (h : arena.Sound m) {index : Nat} {id : ClassId}
    (h_found : arena.find? (.ofDefinition index) = some id) :
    Follows m arena (pure id) (Meaning.definition m index) (IsDefinition m index) := by
  obtain ⟨c, lineage, -, -, h_traces, -⟩ := h.shows_of_definition h_found
  have h_read : Meaning.definition m index = pure lineage :=
    Meaning.read_ok (Metadata.lineage_eq_ok_iff.mpr h_traces)
  rw [h_read]
  exact .pure h ⟨h_traces, h_found⟩

/-- A definition that is not there in a seeded arena has no chain. -/
theorem definition_value_of_seeded (h_seeded : arena.Seeded m) {index : Nat}
    (h_new : arena.find? (.ofDefinition index) = none) :
    (Meaning.definition m index).value = none := by
  by_contra h_some
  obtain ⟨lineage, h_lineage⟩ := Option.ne_none_iff_exists'.mp h_some
  rw [Meaning.definition, Meaning.read_value_eq_some_iff, Metadata.lineage_eq_ok_iff] at h_lineage
  obtain ⟨id, h_id⟩ := h_seeded index lineage h_lineage
  rw [h_new] at h_id
  cases h_id

/-- **Definitions.** By induction on the number of types that may still be followed outwards. -/
theorem definitionWithin_follows (h : arena.Sound m) (links index : Nat) :
    Follows m arena (definitionWithin m links index) (Meaning.definition m index)
      (IsDefinition m index) := by
  induction links generalizing arena index with
  | zero =>
    refine .bind_get ?_
    split
    next id h_found => exact found_follows h h_found
    next h_new =>
      exact .refuse h rfl rfl rfl rfl fun h_seeded => definition_value_of_seeded h_seeded h_new
  | succ links ih =>
    refine .bind_get ?_
    split
    next id h_found => exact found_follows h h_found
    next h_new =>
      have h_step : Meaning.definition m index = Meaning.read (do
          let row ← m.typeDefinition index
          let outer ← m.outerLineage m.lineage row
          m.lineageOf index row outer) :=
        Meaning.read_congr fun _ => Metadata.lineage_eq_ok_iff_step
      rw [h_step, Meaning.read_bind]
      refine .bind_read h fun row h_row => ?_
      rw [Meaning.read_bind]
      refine (declaringClass_follows h (fun outer => ih h outer) row).with_value.bind
        fun arena' declaring outer h_le h_sound ⟨h_outer, h_encloses⟩ => ?_
      rw [Meaning.read_value_eq_some_iff, Metadata.outerLineage_eq_ok_iff] at h_outer
      rcases h_outer with ⟨h_alone, rfl⟩ | ⟨o, around, h_inside, h_around, rfl⟩
      · refine create_follows h_sound h_encloses (fun _ h_none => by cases h_none) ?_
        exact fun lineage h_made => .top h_row h_alone h_made
      · rw [Metadata.lineage_eq_ok_iff] at h_around
        refine create_follows h_sound h_encloses (fun around' h_some => ?_) ?_
        · cases h_some
          rwa [h_around.frame_definition]
        · exact fun lineage h_made => .nested h_row h_inside h_around h_made

theorem definition_follows (h : arena.Sound m) (index : Nat) :
    Follows m arena (definition m index) (Meaning.definition m index) (IsDefinition m index) :=
  definitionWithin_follows h _ index

end Creation

end Resolving
end GlobalMetadata
