import GlobalMetadata.Proofs.Denotation

/-!
# What members resolve to

Members are what references are resolved for. Here the members of a class are read as terms, and
resolving them is followed one step at a time, up to `Resolving.members_follows`.

Two things take more than reading references. Fields and methods are sorted, which is done alike on
ids and on terms because what they are sorted by is the same text; for methods that text is the
signature, which is where the display of terms comes in. And a nested type has to be declared by the
class at hand, which a class shows and a chain says.
-/

namespace GlobalMetadata

theorem optionRel_imp {α β : Type} {R S : α → β → Prop} (h_imp : ∀ a b, R a b → S a b)
    {a : Option α} {b : Option β} (h : Option.Rel R a b) : Option.Rel S a b := by
  cases h with
  | some h_R => exact .some (h_imp _ _ h_R)
  | none => exact .none

/-! ### Reading members -/

namespace Arena

variable (arena : Arena)

/-- A class stands for a key. -/
def UnfoldsClass (k : KeyTerm) (id : ClassId) : Prop :=
  ∃ c, arena.class? id = some c ∧ arena.UnfoldsKey k c.key

/-- A field stands for a field of terms. -/
structure ReadsField (t : FieldTerm) (f : ResolvedField) : Prop where
  name : f.name = t.name
  /-- Both are static or neither is. -/
  isStatic : f.isStatic = t.isStatic
  type : arena.Unfolds t.type f.type
  /-- The declaring classes agree. -/
  declaring : arena.UnfoldsClass t.declaring f.declaring
  token : f.token = t.token

/-- A parameter stands for a parameter of terms. -/
structure ReadsParameter (t : ParameterTerm) (p : ResolvedParameter) : Prop where
  name : p.name = t.name
  type : arena.Unfolds t.type p.type

/-- A method stands for a method of terms. -/
structure ReadsMethod (t : MethodTerm) (f : ResolvedMethod) : Prop where
  name : f.name = t.name
  uniqueId : f.uniqueId = t.uniqueId
  signature : f.signature = t.signature
  /-- Both are static or neither is. -/
  isStatic : f.isStatic = t.isStatic
  returnType : arena.Unfolds t.returnType f.returnType
  parameters : List.Forall₂ arena.ReadsParameter t.parameters f.parameters
  /-- The declaring classes agree. -/
  declaring : arena.UnfoldsClass t.declaring f.declaring
  token : f.token = t.token
  address : f.address = t.address

/-- The members of a class stand for members of terms. -/
structure ReadsMembers (t : MembersTerm) (members : Members) : Prop where
  /-- The underlying types agree. -/
  underlying : Option.Rel arena.Unfolds t.underlying members.underlying
  /-- The nested classes agree. -/
  nested : List.Forall₂ arena.UnfoldsClass t.nested members.nested
  fields : List.Forall₂ arena.ReadsField t.fields members.fields
  methods : List.Forall₂ arena.ReadsMethod t.methods members.methods

section Keeping

variable {arena} {arena' : Arena} (h_le : arena ≤ arena')

include h_le

theorem UnfoldsClass.mono {k : KeyTerm} {id : ClassId} (h : arena.UnfoldsClass k id) :
    arena'.UnfoldsClass k id := by
  obtain ⟨c, h_c, h_k⟩ := h
  obtain ⟨c', h_c', h_grows⟩ := class?_mono h_le h_c
  refine ⟨c', h_c', ?_⟩
  rw [h_grows.key_eq]
  exact h_k.mono h_le

theorem ReadsField.mono {t : FieldTerm} {f : ResolvedField} (h : arena.ReadsField t f) :
    arena'.ReadsField t f :=
  { h with
    type := h.type.mono h_le
    declaring := h.declaring.mono h_le }

theorem ReadsParameter.mono {t : ParameterTerm} {p : ResolvedParameter}
    (h : arena.ReadsParameter t p) : arena'.ReadsParameter t p :=
  { h with type := h.type.mono h_le }

theorem ReadsMethod.mono {t : MethodTerm} {f : ResolvedMethod} (h : arena.ReadsMethod t f) :
    arena'.ReadsMethod t f :=
  { h with
    returnType := h.returnType.mono h_le
    parameters := h.parameters.imp fun _ _ h_p => h_p.mono h_le
    declaring := h.declaring.mono h_le }

theorem ReadsMembers.mono {t : MembersTerm} {members : Members} (h : arena.ReadsMembers t members) :
    arena'.ReadsMembers t members where
  underlying := optionRel_imp (fun _ _ h_t => h_t.mono h_le) h.underlying
  nested := h.nested.imp fun _ _ h_c => h_c.mono h_le
  fields := h.fields.imp fun _ _ h_f => h_f.mono h_le
  methods := h.methods.imp fun _ _ h_f => h_f.mono h_le

end Keeping

end Arena

/-- The types of fields, results and parameters. -/
def MembersTerm.types (t : MembersTerm) : List TypeTerm :=
  t.fields.map (·.type) ++ t.methods.flatMap fun f => f.returnType :: f.parameters.map (·.type)

/-- The types of fields, results and parameters. -/
def Members.types (members : Members) : List TypeId :=
  members.fields.map (·.type) ++
    members.methods.flatMap fun f => f.returnType :: f.parameters.map (·.type)

theorem Arena.ReadsMembers.types {arena : Arena} {t : MembersTerm} {members : Members}
    (h : arena.ReadsMembers t members) : List.Forall₂ arena.Unfolds t.types members.types := by
  refine List.rel_append ?_ (List.rel_flatMap h.methods fun t f h_f => ?_)
  · exact List.forall₂_map_left_iff.mpr (List.forall₂_map_right_iff.mpr
      (h.fields.imp fun _ _ h_f => h_f.type))
  · exact .cons h_f.returnType (List.forall₂_map_left_iff.mpr (List.forall₂_map_right_iff.mpr
      (h_f.parameters.imp fun _ _ h_p => h_p.type)))

/-! ### Sorting alike -/

section Sorting

variable {α β : Type} {R : α → β → Prop}

/-- Two lists that agree are the two sides of one list of pairs. -/
theorem exists_pairs_of_forall₂ {as : List α} {bs : List β} (h : List.Forall₂ R as bs) :
    ∃ pairs : List (α × β), pairs.map Prod.fst = as ∧ pairs.map Prod.snd = bs ∧
      ∀ pair ∈ pairs, R pair.1 pair.2 := by
  induction h with
  | nil => exact ⟨[], rfl, rfl, fun _ h_mem => absurd h_mem List.not_mem_nil⟩
  | @cons a b as bs h_ab _ ih =>
    obtain ⟨pairs, rfl, rfl, h_pairs⟩ := ih
    refine ⟨(a, b) :: pairs, rfl, rfl, fun pair h_mem => ?_⟩
    rcases List.mem_cons.mp h_mem with rfl | h_mem
    · exact h_ab
    · exact h_pairs pair h_mem

theorem forall₂_of_pairs {pairs : List (α × β)} (h : ∀ pair ∈ pairs, R pair.1 pair.2) :
    List.Forall₂ R (pairs.map Prod.fst) (pairs.map Prod.snd) := by
  induction pairs with
  | nil => exact .nil
  | cons pair pairs ih =>
    exact .cons (h pair List.mem_cons_self) (ih fun p h_p => h p (List.mem_cons_of_mem pair h_p))

/-- Sorting by what agrees keeps the agreement. -/
theorem forall₂_mergeSort {as : List α} {bs : List β} (h : List.Forall₂ R as bs)
    {le : α → α → Bool} {le' : β → β → Bool}
    (h_le : ∀ a b a' b', R a b → R a' b' → le a a' = le' b b') :
    List.Forall₂ R (as.mergeSort le) (bs.mergeSort le') := by
  obtain ⟨pairs, rfl, rfl, h_pairs⟩ := exists_pairs_of_forall₂ h
  -- the pairs can be sorted by either side
  have h_fst := List.map_mergeSort (f := Prod.fst) (l := pairs)
    (r := fun p q => le p.1 q.1) (s := le) fun _ _ _ _ => rfl
  have h_snd := List.map_mergeSort (f := Prod.snd) (l := pairs)
    (r := fun p q => le p.1 q.1) (s := le') fun p h_p q h_q =>
      h_le _ _ _ _ (h_pairs p h_p) (h_pairs q h_q)
  rw [← h_fst, ← h_snd]
  exact forall₂_of_pairs fun pair h_pair => h_pairs pair (List.mem_mergeSort.mp h_pair)

end Sorting

/-! ### Resolving members -/

namespace Resolving

section Members

variable {m : Metadata} {arena : Arena} (maxDepth : Nat) {terms : TermScope}
  {scope : GenericScope} {owner : ClassId} {k : KeyTerm}

theorem field_follows (h : arena.Sound m) (h_scope : arena.UnfoldsScope terms scope)
    (h_owner : arena.UnfoldsClass k owner) (row : FieldDefinition) :
    Follows m arena (field m maxDepth scope owner row) (Meaning.field m maxDepth terms k row)
      fun arena' f t => arena'.ReadsField t f := by
  refine .bind_read h fun name _ => ?_
  cases row.typeIndex with
  | none => exact .throw h _
  | some index =>
    refine .bind_read h fun d _ => ?_
    refine (descriptor_follows maxDepth h h_scope d).bind fun arena' id t h_le h_sound h_t => ?_
    exact .pure h_sound ⟨rfl, rfl, h_t, h_owner.mono h_le, rfl⟩

theorem fields_follows (h : arena.Sound m) (h_scope : arena.UnfoldsScope terms scope)
    (h_owner : arena.UnfoldsClass k owner) (row : TypeDefinition) :
    Follows m arena (fields m maxDepth scope owner row) (Meaning.fields m maxDepth terms k row)
      fun arena' fs ts => List.Forall₂ arena'.ReadsField ts fs := by
  refine .bind_read h fun rows _ => ?_
  refine (Follows.mapM h (fun _ _ _ _ h_le h_f => h_f.mono h_le) rows
    fun row _ arena' h_le h_sound =>
      field_follows maxDepth h_sound (h_scope.mono h_le) (h_owner.mono h_le) row).bind
    fun arena' fs ts h_le h_sound h_fs => ?_
  refine .pure h_sound (forall₂_mergeSort h_fs fun t f t' f' h_f h_f' => ?_)
  rw [h_f.name, h_f'.name]

theorem methodParameter_follows (h : arena.Sound m) (h_scope : arena.UnfoldsScope terms scope)
    (row : ParameterDefinition) :
    Follows m arena (methodParameter m maxDepth scope row)
      (Meaning.methodParameter m maxDepth terms row)
      fun arena' p t => arena'.ReadsParameter t p := by
  refine .bind_read h fun name _ => ?_
  cases row.typeIndex with
  | none => exact .throw h _
  | some index =>
    refine (typeIndex_follows maxDepth h h_scope index).bind fun arena' id t h_le h_sound h_t => ?_
    exact .pure h_sound ⟨rfl, h_t⟩

theorem parameters_follows (h : arena.Sound m) (h_scope : arena.UnfoldsScope terms scope)
    (row : MethodDefinition) :
    Follows m arena (parameters m maxDepth scope row) (Meaning.parameters m maxDepth terms row)
      fun arena' ps ts => List.Forall₂ arena'.ReadsParameter ts ps :=
  .bind_read h fun rows _ =>
    .mapM h (fun _ _ _ _ h_le h_p => h_p.mono h_le) rows fun row _ _ h_le h_sound =>
      methodParameter_follows maxDepth h_sound (h_scope.mono h_le) row

theorem returnType_follows (h : arena.Sound m) (h_scope : arena.UnfoldsScope terms scope)
    (index : Option Nat) :
    Follows m arena (returnType m maxDepth scope index) (Meaning.returnType m maxDepth terms index)
      fun arena' id t => arena'.Unfolds t id := by
  cases index with
  | none => exact intern_follows h .void .void trivial trivial
  | some index => exact typeIndex_follows maxDepth h h_scope index

/-- A signature is written alike for ids and for terms. -/
theorem signature_eq (h : arena.Sound m) (isStatic : Bool) {returnId : TypeId}
    {returnTerm : TypeTerm} (h_return : arena.Unfolds returnTerm returnId) (name : String)
    {ps : List ResolvedParameter} {ts : List ParameterTerm}
    (h_ps : List.Forall₂ arena.ReadsParameter ts ps) :
    signature arena isStatic returnId name ps =
      Meaning.signature m isStatic returnTerm name ts := by
  -- each parameter is displayed as its term
  have h_written : (ps.map fun p => (arena.display p.type, p.name)) =
      ts.map fun t => (m.display t.type, t.name) := by
    induction h_ps with
    | nil => rfl
    | cons h_p _ ih => rw [List.map_cons, List.map_cons, ih, h.display_eq h_p.type, h_p.name]
  rw [signature, Meaning.signature, h_written, h.display_eq h_return]

theorem method_follows (h : arena.Sound m) (h_scope : arena.UnfoldsScope terms scope)
    (h_owner : arena.UnfoldsClass k owner) {c : ResolvedClass}
    (h_inst : c.isInstantiation = k.isInstantiation) (h_image : c.image = m.imageOf k.definition)
    (row : MethodDefinition) :
    Follows m arena (method m maxDepth scope owner c row) (Meaning.method m maxDepth terms k row)
      fun arena' f t => arena'.ReadsMethod t f := by
  refine .bind_read h fun name _ => ?_
  refine (returnType_follows maxDepth h h_scope row.returnType).bind
    fun arena₁ returnId returnTerm h_le₁ h_sound₁ h_return => ?_
  refine (parameters_follows maxDepth h_sound₁ (h_scope.mono h_le₁) row).bind
    fun arena₂ ps ts h_le₂ h_sound₂ h_ps => .bind_get ?_
  have h_return₂ := h_return.mono h_le₂
  exact .pure h_sound₂
    { name := rfl
      uniqueId := rfl
      signature := signature_eq h_sound₂ row.isStatic h_return₂ name h_ps
      isStatic := rfl
      returnType := h_return₂
      parameters := h_ps
      declaring := (h_owner.mono h_le₁).mono h_le₂
      token := rfl
      address := by rw [h_inst, h_image] }

/-- Methods are told apart alike. -/
theorem identify_forall₂ {fs : List ResolvedMethod} {ts : List MethodTerm}
    (h : List.Forall₂ arena.ReadsMethod ts fs) :
    List.Forall₂ arena.ReadsMethod (Meaning.identify ts) (identify fs) := by
  -- the identifiers come from the names and the numbers of parameters
  have h_ids : (fs.map fun f => (f.name, f.parameters.length)) =
      ts.map fun t => (t.name, t.parameters.length) := by
    induction h with
    | nil => rfl
    | cons h_f _ ih =>
      rw [List.map_cons, List.map_cons, ih, h_f.name, h_f.parameters.length_eq]
  rw [identify, Meaning.identify, h_ids]
  -- whatever they are, they are handed out in the same order
  generalize Name.uniqueIds (ts.map fun t => (t.name, t.parameters.length)) = ids
  clear h_ids
  induction h generalizing ids with
  | nil => exact .nil
  | cons h_f _ ih =>
    cases ids with
    | nil => exact .nil
    | cons id ids => exact .cons { h_f with uniqueId := rfl } (ih ids)

theorem methods_follows (h : arena.Sound m) (h_scope : arena.UnfoldsScope terms scope)
    (h_owner : arena.UnfoldsClass k owner) {c : ResolvedClass}
    (h_inst : c.isInstantiation = k.isInstantiation) (h_image : c.image = m.imageOf k.definition)
    (row : TypeDefinition) :
    Follows m arena (methods m maxDepth scope owner c row) (Meaning.methods m maxDepth terms k row)
      fun arena' fs ts => List.Forall₂ arena'.ReadsMethod ts fs := by
  refine .bind_read h fun rows _ => ?_
  refine (Follows.mapM h (fun _ _ _ _ h_le h_f => h_f.mono h_le) rows
    fun row _ arena' h_le h_sound => method_follows maxDepth h_sound (h_scope.mono h_le)
      (h_owner.mono h_le) h_inst h_image row).bind fun arena' fs ts h_le h_sound h_fs => ?_
  refine .pure h_sound (identify_forall₂ (forall₂_mergeSort h_fs fun t f t' f' h_f h_f' => ?_))
  rw [h_f.signature, h_f'.signature]

/-- Whether a class is declared by another one can be seen by their chains. -/
theorem declaring_eq_some_iff (h : arena.Sound m) {owner id : ClassId} {owning index : Nat}
    {lineage : Lineage} (h_owner : arena.find? (.ofDefinition owning) = some owner)
    (h_id : IsDefinition m index arena id lineage) :
    (arena.class? id >>= (·.declaring)) = some owner ↔
      lineage.outer?.map (·.frame.definition) = some owning := by
  obtain ⟨h_traces, h_found⟩ := h_id
  obtain ⟨c, lineage', h_c, -, h_traces', h_shows⟩ := h.shows_of_definition h_found
  obtain rfl := h_traces.unique h_traces'
  have h_declaring := h_shows.declaring
  rw [h_c]
  show c.declaring = some owner ↔ _
  -- now both are given by the class around
  generalize c.declaring = declaring at h_declaring
  generalize lineage.outer? = outer at h_declaring
  cases h_declaring with
  | top => simp
  | @nested around id' h_around =>
    rw [Option.map_some, Option.some_inj, Option.some_inj]
    constructor
    · rintro rfl
      -- one class has one key
      obtain ⟨c', h_c', h_key'⟩ := Arena.find?_eq_some_iff.mp h_around
      obtain ⟨c'', h_c'', h_key''⟩ := Arena.find?_eq_some_iff.mp h_owner
      rw [h_c'] at h_c''
      cases h_c''
      exact congrArg ClassKey.definition (h_key'.symm.trans h_key'')
    · rintro rfl
      exact Option.some.inj (h_around.symm.trans h_owner)

theorem nestedClass_follows (h : arena.Sound m) {owner : ClassId}
    (h_owner : arena.find? (.ofDefinition k.definition) = some owner) (index : Nat) (entry : Int) :
    Follows m arena (nestedClass m owner index entry) (Meaning.nestedClass m k entry)
      fun arena' id k' => arena'.UnfoldsClass k' id := by
  unfold nestedClass Meaning.nestedClass
  cases toIndex? entry with
  | none => exact .throw h _
  | some position =>
    refine (definition_follows h position).bind
      fun arena' id lineage h_le h_sound h_id => .bind_get ?_
    have h_iff := declaring_eq_some_iff h_sound (Arena.find?_mono h_le h_owner) h_id
    by_cases h_declared : lineage.outer?.map (·.frame.definition) = some k.definition
    · rw [if_pos h_declared, if_pos (h_iff.mpr h_declared)]
      obtain ⟨c, h_c, h_key⟩ := Arena.find?_eq_some_iff.mp h_id.2
      refine .pure h_sound ⟨c, h_c, ?_⟩
      rw [h_key]
      exact Arena.unfoldsKey_ofDefinition.mpr rfl
    · rw [if_neg h_declared, if_neg fun h_some => h_declared (h_iff.mp h_some)]
      exact .throw h_sound _

theorem nested_follows (h : arena.Sound m) {owner : ClassId} {c : ResolvedClass}
    (h_owner : arena.UnfoldsClass k owner) (h_inst : c.isInstantiation = k.isInstantiation)
    (row : TypeDefinition) :
    Follows m arena (nested m owner c row) (Meaning.nested m k row)
      fun arena' ids ks => List.Forall₂ arena'.UnfoldsClass ks ids := by
  unfold nested Meaning.nested
  rw [h_inst]
  split
  next => exact .pure h .nil
  next h_plain =>
    refine .bind_read h fun rows _ => ?_
    -- a class without arguments is that of its definition
    have h_found : arena.find? (.ofDefinition k.definition) = some owner := by
      obtain ⟨c', h_c', h_k⟩ := h_owner
      have h_key := ClassKey.eq_ofDefinition
        (h_k.isInstantiation_eq.trans (Bool.not_eq_true _ ▸ h_plain))
      rw [h_k.1] at h_key
      exact Arena.find?_eq_some_iff.mpr ⟨c', h_c', h_key⟩
    exact .mapM h (fun _ _ _ _ h_le h_id => h_id.mono h_le) rows fun entry _ _ h_le h_sound =>
      nestedClass_follows h_sound (Arena.find?_mono h_le h_found) c.definition entry

theorem underlying_follows (h : arena.Sound m) (h_scope : arena.UnfoldsScope terms scope)
    {c : ResolvedClass} {row : TypeDefinition} (h_enum : c.isEnum = row.isEnum) :
    Follows m arena (underlying m maxDepth scope c row) (Meaning.underlying m maxDepth terms row)
      fun arena' id t => Option.Rel arena'.Unfolds t id := by
  unfold underlying Meaning.underlying
  cases row.elementTypeIndex with
  | none => exact .pure h .none
  | some index =>
    dsimp only
    rw [h_enum]
    split
    · exact (typeIndex_follows maxDepth h h_scope index).map fun _ _ _ _ h_t => .some h_t
    · exact .pure h .none

/-- **Members.** The members of a class that is there. -/
theorem members_follows (h : arena.Sound m) {id : ClassId} {c : ResolvedClass}
    (h_c : arena.class? id = some c) (h_k : arena.UnfoldsKey k c.key) :
    Follows m arena (members m maxDepth id c) (Meaning.members m maxDepth k)
      fun arena' members t => arena'.ReadsMembers t members := by
  obtain ⟨lineage, h_traces, h_shows⟩ := h.shows_of_key h_c h_k
  have h_inst : c.isInstantiation = k.isInstantiation := h_k.isInstantiation_eq
  have h_owner : arena.UnfoldsClass k id := ⟨c, h_c, h_k⟩
  unfold members Meaning.members
  rw [ResolvedClass.definition, h_k.1]
  refine .bind_read h fun row h_row => ?_
  -- the class shows whether its row is that of an enumeration
  have h_enum : c.isEnum = row.isEnum := by
    rw [h_traces.typeDefinition_eq] at h_row
    rw [h_shows.isEnum, Except.ok.inj h_row]
  refine (underlying_follows maxDepth h h_k.scope h_enum).bind
    fun arena₁ underlyingId underlyingTerm h_le₁ h_sound₁ h_underlying => ?_
  refine (fields_follows maxDepth h_sound₁ (h_k.scope.mono h_le₁) (h_owner.mono h_le₁) row).bind
    fun arena₂ fs fieldTerms h_le₂ h_sound₂ h_fields => ?_
  have h_le₁₂ := le_trans h_le₁ h_le₂
  refine (methods_follows maxDepth h_sound₂ (h_k.scope.mono h_le₁₂) (h_owner.mono h_le₁₂) h_inst
    h_shows.image row).bind fun arena₃ ms methodTerms h_le₃ h_sound₃ h_methods => ?_
  have h_le₁₂₃ := le_trans h_le₁₂ h_le₃
  refine (nested_follows h_sound₃ (h_owner.mono h_le₁₂₃) h_inst row).bind
    fun arena₄ nestedIds nestedKeys h_le₄ h_sound₄ h_nested => ?_
  have h_le₃₄ := le_trans h_le₃ h_le₄
  exact .pure h_sound₄
    { underlying := optionRel_imp (fun _ _ h_t => h_t.mono (le_trans h_le₂ h_le₃₄)) h_underlying
      nested := h_nested
      fields := h_fields.imp fun _ _ h_f => h_f.mono h_le₃₄
      methods := h_methods.imp fun _ _ h_f => h_f.mono h_le₄ }

end Members

end Resolving
end GlobalMetadata
