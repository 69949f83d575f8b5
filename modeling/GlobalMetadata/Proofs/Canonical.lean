import GlobalMetadata.Proofs.Overload
import GlobalMetadata.Proofs.Semantics
import GlobalMetadata.Proofs.Substitution

/-!
# Members in canonical order

What is published as the members of a class is a run of rows, converted one by one and sorted.
`Arena.Lists` says so for the two kinds of members that are sorted, in terms of the tables alone.

* The rows are those from the start on that the definition names, as many as it counts
  (`Metadata.IsRun`).
* Each of them is converted (`Arena.ConvertsField`, `Arena.ConvertsMethod`): its name is read from
  the heap, and its types are what its descriptors denote with the arguments of the class put in.
* Sorting loses and repeats nothing, and what has the same key stays in table order
  (`CanonicalOrder`).

Methods are sorted by their written signature, which was written in the midst of a run. A signature
is made of the display of types, and that of the types of a method does not change any more once
they are there; so it is still what would be written now (`Arena.Lists.signatures`).

Nothing new has to be followed through a run: members are what the key of their class means
(`Arena.Meant`), a meaning lists terms in order, and in a sound arena a term has only one id.
-/

namespace GlobalMetadata

open Relation

/-! ### Canonical order -/

/-- A list in ascending order of a text, where what has the same text stays as it was declared. -/
structure CanonicalOrder {α : Type} (key : α → String) (declared listed : List α) : Prop where
  /-- Nothing is lost and nothing is repeated. -/
  perm : listed.Perm declared
  ascending : listed.Pairwise fun a b => key a ≤ key b
  /-- What has the same text is in the declared order. -/
  stable : ∀ text, listed.filter (key · = text) = declared.filter (key · = text)

/-- Merge sort gives the canonical order. -/
theorem canonicalOrder_mergeSort {α : Type} (key : α → String) (declared : List α) :
    CanonicalOrder key declared (declared.mergeSort fun a b => key a ≤ key b) := by
  have h_trans : ∀ a b c, decide (key a ≤ key b) = true → decide (key b ≤ key c) = true →
      decide (key a ≤ key c) = true := by
    simp only [decide_eq_true_iff]
    exact fun a b c => String.le_trans
  have h_total : ∀ a b, (decide (key a ≤ key b) || decide (key b ≤ key a)) = true := by
    simp only [Bool.or_eq_true, decide_eq_true_iff]
    exact fun a b => String.le_total _ _
  have h_perm := declared.mergeSort_perm fun a b => key a ≤ key b
  refine ⟨h_perm, ?_, fun text => ?_⟩
  · have h_sorted := List.pairwise_mergeSort h_trans h_total declared
    exact h_sorted.imp fun h_le => of_decide_eq_true h_le
  · -- what has the same text is sorted as it is, so that it is found in the result in this order
    have h_same : (declared.filter (key · = text)).Pairwise
        fun a b => decide (key a ≤ key b) = true := by
      refine List.pairwise_of_forall_mem_list fun a h_a b h_b => ?_
      have h_a := of_decide_eq_true (List.mem_filter.mp h_a).2
      have h_b := of_decide_eq_true (List.mem_filter.mp h_b).2
      simp [h_a, h_b]
    have h_sublist := List.sublist_mergeSort h_trans h_total h_same List.filter_sublist
    have h_filter := h_sublist.filter (key · = text)
    rw [List.filter_filter] at h_filter
    simp only [Bool.and_self] at h_filter
    exact (h_filter.eq_of_length (h_perm.filter _).length_eq.symm).symm

/-! ### Runs of rows -/

namespace Metadata

/-- The rows from a start on, as many as are counted. -/
structure IsRun {α : Type} (entries : Array α) (start : Int) (count : Nat) (rows : List α) :
    Prop where
  length : rows.length = count
  /-- Each of them stands at its place in the table. -/
  at_place : ∀ i row, rows[i]? = some row → 0 ≤ start ∧ entries[start.toNat + i]? = some row

theorem isRun_of_memberRows {α : Type} {table : MemberTable} {entries : Array α} {start : Int}
    {count : Nat} {rows : List α} (h : memberRows table entries start count = .ok rows) :
    IsRun entries start count rows := by
  obtain ⟨⟨first, last⟩, h_run, h_rows⟩ := except_bind_eq_ok_iff.mp h
  cases h_rows
  unfold members at h_run
  by_cases h_empty : count = 0
  · -- the start of an empty run is not looked at
    rw [if_pos h_empty] at h_run
    cases h_run
    refine ⟨by simp [h_empty], fun i row h_row => ?_⟩
    simp at h_row
  rw [if_neg h_empty] at h_run
  split at h_run
  next run h_some =>
    cases h_run
    obtain ⟨place, h_place, h_inside⟩ := Option.bind_eq_some_iff.mp h_some
    -- a run that was found lies inside the table
    unfold runOf? at h_inside
    split at h_inside
    next h_le =>
      cases h_inside
      cases start with
      | negSucc _ => cases h_place
      | ofNat place =>
        cases h_place
        refine ⟨by simp; omega, fun i row h_row => ⟨Int.natCast_nonneg _, ?_⟩⟩
        rw [Array.getElem?_toList, Array.getElem?_extract] at h_row
        split at h_row
        · exact h_row
        · cases h_row
    next => cases h_inside
  next => cases h_run

end Metadata

/-! ### Conversions -/

section Lists

variable {α β γ : Type} {R : α → β → Prop}

/-- What each element of a list is related to makes up a list. -/
theorem exists_forall₂ {as : List α} (h : ∀ a ∈ as, ∃ b, R a b) : ∃ bs, List.Forall₂ R as bs := by
  induction as with
  | nil => exact ⟨[], .nil⟩
  | cons a as ih =>
    obtain ⟨b, h_b⟩ := h a List.mem_cons_self
    obtain ⟨bs, h_bs⟩ := ih fun a' h_a' => h a' (List.mem_cons_of_mem a h_a')
    exact ⟨b :: bs, .cons h_b h_bs⟩

/-- What is related to a sorted list is sorted itself, if it is told by what it is related to. -/
theorem exists_mergeSort_eq (h_unique : Relator.RightUnique R) {key : α → String}
    {key' : β → String} (h_key : ∀ a b, R a b → key' b = key a) {as : List α} {sorted : List β}
    (h : List.Forall₂ R (as.mergeSort fun a a' => key a ≤ key a') sorted) :
    ∃ bs, List.Forall₂ R as bs ∧ sorted = bs.mergeSort fun b b' => key' b ≤ key' b' := by
  have h_each : ∀ a ∈ as, ∃ b, R a b := by
    intro a h_a
    obtain ⟨b, -, h_b⟩ := exists_right_of_forall₂ h (List.mem_mergeSort.mpr h_a)
    exact ⟨b, h_b⟩
  obtain ⟨bs, h_bs⟩ := exists_forall₂ h_each
  refine ⟨bs, h_bs, List.right_unique_forall₂' h_unique h (forall₂_mergeSort h_bs ?_)⟩
  intro a b a' b' h_b h_b'
  rw [h_key a b h_b, h_key a' b' h_b']

/-- Where one list is as long as the other, each of its elements comes to something. -/
theorem exists_mem_zipWith {f : α → β → γ} {as : List α} {bs : List β}
    (h_length : as.length = bs.length) {a : α} (h : a ∈ as) :
    ∃ b, f a b ∈ List.zipWith f as bs := by
  obtain ⟨i, h_i, rfl⟩ := List.mem_iff_getElem.mp h
  have h_inside : i < (List.zipWith f as bs).length := by
    rw [List.length_zipWith, ← h_length, Nat.min_self]
    exact h_i
  have h_mem := List.getElem_mem h_inside
  rw [List.getElem_zipWith] at h_mem
  exact ⟨_, h_mem⟩

end Lists

/-! ### Telling methods apart -/

/-- A method that is not told apart from its overloads. -/
def ResolvedMethod.unidentified (f : ResolvedMethod) : ResolvedMethod :=
  { f with uniqueId := "" }

/-- Identifiers are all that methods are given when they are told apart. -/
theorem Resolving.map_unidentified_identify (fs : List ResolvedMethod) :
    (identify fs).map (·.unidentified) = fs.map (·.unidentified) := by
  have h_length : fs.length ≤ (Name.uniqueIds (fs.map ResolvedMethod.overload)).length := by
    rw [Name.length_uniqueIds, List.length_map]
  -- what is given to a method is taken away again
  have h_each : (identify fs).map (·.unidentified) =
      List.zipWith (fun f _ => f.unidentified) fs
        (Name.uniqueIds (fs.map ResolvedMethod.overload)) := by
    rw [identify, List.map_zipWith]
    rfl
  rw [h_each, ← List.map_uncurry_zip_eq_zipWith]
  calc _ = ((fs.zip _).map Prod.fst).map (·.unidentified) := (List.map_map ..).symm
    _ = fs.map (·.unidentified) := by rw [List.map_fst_zip h_length]

namespace Meaning

theorem exists_mem_identify {ts : List MethodTerm} {t : MethodTerm} (h : t ∈ ts) :
    ∃ id, { t with uniqueId := id } ∈ identify ts := by
  have h_length :
      ts.length = (Name.uniqueIds (ts.map fun t => (t.name, t.parameters.length))).length := by
    rw [Name.length_uniqueIds, List.length_map]
  exact exists_mem_zipWith h_length h

variable {m : Metadata} {maxDepth : Nat} {scope : TermScope} {owner : KeyTerm}

/-- A row gives a method that is not told apart, with the signature that belongs to it. -/
theorem method_value {row : MethodDefinition} {t : MethodTerm}
    (h : (method m maxDepth scope owner row).value = some t) :
    t.uniqueId = "" ∧ t.signature = signature m t.isStatic t.returnType t.name t.parameters := by
  obtain ⟨name, -, h⟩ := bind_value_eq_some_iff.mp h
  obtain ⟨returnTerm, -, h⟩ := bind_value_eq_some_iff.mp h
  obtain ⟨ps, -, h⟩ := bind_value_eq_some_iff.mp h
  cases h
  exact ⟨rfl, rfl⟩

end Meaning

namespace Arena

section Conversions

variable (m : Metadata) (maxDepth : Nat) (arena : Arena) (id : ClassId) (c : ResolvedClass)
  (k : KeyTerm)

/-- A type is what a descriptor denotes among the arguments of a class. -/
def Denotes (d : Descriptor) (type : TypeId) : Prop :=
  ∃ t, m.denote maxDepth (.ofKey k) (nestingLimit + 1) d = some t ∧ arena.term? type = some t

/-- A field is what a row is converted to. -/
structure ConvertsField (row : FieldDefinition) (f : ResolvedField) : Prop where
  name : m.string row.nameIndex = .ok f.name
  /-- The descriptor tells the type and whether the field is static. -/
  type : ∃ index d, row.typeIndex = some index ∧ m.descriptor index = .ok d ∧
    arena.Denotes m maxDepth k d f.type ∧ f.isStatic = d.isStatic
  declaring : f.declaring = id
  token : f.token = row.token

/-- A parameter is what a row is converted to. -/
structure ConvertsParameter (row : ParameterDefinition) (p : ResolvedParameter) : Prop where
  name : m.string row.nameIndex = .ok p.name
  type : ∃ index d, row.typeIndex = some index ∧ m.descriptor index = .ok d ∧
    arena.Denotes m maxDepth k d p.type

/-- A method is what a row is converted to, apart from how it is written and told apart. -/
structure ConvertsMethod (row : MethodDefinition) (f : ResolvedMethod) : Prop where
  name : m.string row.nameIndex = .ok f.name
  isStatic : f.isStatic = row.isStatic
  /-- A method without a result gives nothing. -/
  returnType : match row.returnType with
    | some index => ∃ d, m.descriptor index = .ok d ∧ arena.Denotes m maxDepth k d f.returnType
    | none => arena.term? f.returnType = some .void
  /-- The parameters are those of the rows, in table order. -/
  parameters : ∃ rows, Metadata.IsRun m.parameters row.parameterStart row.parameterCount rows ∧
    List.Forall₂ (arena.ConvertsParameter m maxDepth k) rows f.parameters
  declaring : f.declaring = id
  token : f.token = row.token
  address : f.address = Resolving.methodAddress m c.isInstantiation c.image row

/-- Fields and methods are those of the rows that a definition names, in canonical order. -/
structure Lists (row : TypeDefinition) (members : Members) : Prop where
  fields : ∃ rows declared, Metadata.IsRun m.fields row.fieldStart row.fieldCount rows ∧
    List.Forall₂ (arena.ConvertsField m maxDepth id k) rows declared ∧
    CanonicalOrder (·.name) declared members.fields
  methods : ∃ rows declared, Metadata.IsRun m.methods row.methodStart row.methodCount rows ∧
    List.Forall₂ (arena.ConvertsMethod m maxDepth id c k) rows declared ∧
    CanonicalOrder (·.signature) declared (members.methods.map (·.unidentified))
  /-- Overloads are told apart in the listed order. -/
  identified : Identified members.methods
  /-- Every signature is what would be written now. -/
  signatures : ∀ f ∈ members.methods, f.signature =
    Resolving.signature arena f.isStatic f.returnType f.name f.parameters

end Conversions

/-! ### From terms to ids -/

section Reading

variable {m : Metadata} {maxDepth : Nat} {arena : Arena} {id : ClassId} {c : ResolvedClass}
  {k : KeyTerm}

theorem Sound.denotes (h : arena.Sound m) {d : Descriptor} {t : TypeTerm} {type : TypeId}
    (h_value : (Meaning.descriptor m maxDepth (.ofKey k) d).value = some t)
    (h_type : arena.Unfolds t type) : arena.Denotes m maxDepth k d type :=
  ⟨t, h_value, h.term?_eq h_type⟩

theorem Sound.convertsField (h : arena.Sound m) (h_id : arena.UnfoldsClass k id)
    {row : FieldDefinition} {t : FieldTerm} {f : ResolvedField}
    (h_value : (Meaning.field m maxDepth (.ofKey k) k row).value = some t)
    (h_reads : arena.ReadsField t f) : arena.ConvertsField m maxDepth id k row f := by
  obtain ⟨name, h_name, h_value⟩ := Meaning.bind_value_eq_some_iff.mp h_value
  cases h_index : row.typeIndex with
  | none =>
    rw [h_index] at h_value
    cases h_value
  | some index =>
    rw [h_index] at h_value
    obtain ⟨d, h_d, h_value⟩ := Meaning.bind_value_eq_some_iff.mp h_value
    obtain ⟨type, h_type, h_value⟩ := Meaning.bind_value_eq_some_iff.mp h_value
    cases h_value
    refine ⟨?_, ⟨index, d, h_index, Meaning.read_value_eq_some_iff.mp h_d, ?_, ?_⟩, ?_, ?_⟩
    · rw [h_reads.name]
      exact Meaning.read_value_eq_some_iff.mp h_name
    · exact h.denotes h_type h_reads.type
    · exact h_reads.isStatic
    · exact h_reads.declaring.inj h_id
    · exact h_reads.token

theorem Sound.convertsParameter (h : arena.Sound m) {row : ParameterDefinition} {t : ParameterTerm}
    {p : ResolvedParameter}
    (h_value : (Meaning.methodParameter m maxDepth (.ofKey k) row).value = some t)
    (h_reads : arena.ReadsParameter t p) : arena.ConvertsParameter m maxDepth k row p := by
  obtain ⟨index, d, h_index, h_d, h_type⟩ := Meaning.methodParameter_value h_value
  obtain ⟨name, h_name, h_value⟩ := Meaning.bind_value_eq_some_iff.mp h_value
  rw [h_index] at h_value
  obtain ⟨type, -, h_value⟩ := Meaning.bind_value_eq_some_iff.mp h_value
  cases h_value
  refine ⟨?_, index, d, h_index, h_d, h.denotes h_type h_reads.type⟩
  rw [h_reads.name]
  exact Meaning.read_value_eq_some_iff.mp h_name

theorem Sound.convertsMethod (h : arena.Sound m) (h_id : arena.UnfoldsClass k id)
    (h_inst : c.isInstantiation = k.isInstantiation) (h_image : c.image = m.imageOf k.definition)
    {row : MethodDefinition} {t : MethodTerm} {f : ResolvedMethod}
    (h_value : (Meaning.method m maxDepth (.ofKey k) k row).value = some t)
    (h_reads : arena.ReadsMethod t f) : arena.ConvertsMethod m maxDepth id c k row f := by
  obtain ⟨name, h_name, h_value⟩ := Meaning.bind_value_eq_some_iff.mp h_value
  obtain ⟨returnTerm, h_return, h_value⟩ := Meaning.bind_value_eq_some_iff.mp h_value
  obtain ⟨ps, h_ps, h_value⟩ := Meaning.bind_value_eq_some_iff.mp h_value
  cases h_value
  refine ⟨?_, h_reads.isStatic, ?_, ?_, h_reads.declaring.inj h_id, h_reads.token, ?_⟩
  · rw [h_reads.name]
    exact Meaning.read_value_eq_some_iff.mp h_name
  · cases h_index : row.returnType with
    | none =>
      rw [h_index] at h_return
      cases h_return
      exact h.term?_eq h_reads.returnType
    | some index =>
      rw [h_index] at h_return
      obtain ⟨d, h_d, h_type⟩ := Meaning.typeIndex_value h_return
      exact ⟨d, h_d, h.denotes h_type h_reads.returnType⟩
  · obtain ⟨rows, h_rows, h_ps⟩ := Meaning.bind_value_eq_some_iff.mp h_ps
    have h_rows := Metadata.isRun_of_memberRows (Meaning.read_value_eq_some_iff.mp h_rows)
    refine ⟨rows, h_rows, ?_⟩
    -- each row has its term, and each term its parameter
    have h_convert : ∀ row t p, (Meaning.methodParameter m maxDepth (.ofKey k) row).value = some t →
        arena.ReadsParameter t p → arena.ConvertsParameter m maxDepth k row p :=
      fun _ _ _ h_term h_parameter => h.convertsParameter h_term h_parameter
    exact forall₂_comp h_convert (Meaning.forall₂_of_mapM_value h_ps) h_reads.parameters
  · rw [h_reads.address, h_inst, h_image]

/-! A term has only one id, so that what is read as a member of terms is only one member. -/

theorem ReadsField.inj {t : FieldTerm} {f f' : ResolvedField} (h : arena.ReadsField t f)
    (h' : arena.ReadsField t f') : f = f' := by
  obtain ⟨name, isStatic, type, declaring, token⟩ := f
  obtain ⟨name', isStatic', type', declaring', token'⟩ := f'
  have h_name : name = name' := h.name.trans h'.name.symm
  have h_static : isStatic = isStatic' := h.isStatic.trans h'.isStatic.symm
  have h_token : token = token' := h.token.trans h'.token.symm
  have h_type : type = type' := h.type.inj h'.type
  have h_declaring : declaring = declaring' := h.declaring.inj h'.declaring
  rw [h_name, h_static, h_token, h_type, h_declaring]

theorem ReadsParameter.inj {t : ParameterTerm} {p p' : ResolvedParameter}
    (h : arena.ReadsParameter t p) (h' : arena.ReadsParameter t p') : p = p' := by
  obtain ⟨name, type⟩ := p
  obtain ⟨name', type'⟩ := p'
  have h_name : name = name' := h.name.trans h'.name.symm
  have h_type : type = type' := h.type.inj h'.type
  rw [h_name, h_type]

theorem ReadsMethod.inj {t : MethodTerm} {f f' : ResolvedMethod} (h : arena.ReadsMethod t f)
    (h' : arena.ReadsMethod t f') : f = f' := by
  have h_parameters : f.parameters = f'.parameters :=
    List.right_unique_forall₂' (R := arena.ReadsParameter) (fun _ _ _ h_p h_p' => h_p.inj h_p')
      h.parameters h'.parameters
  have h_return : f.returnType = f'.returnType := h.returnType.inj h'.returnType
  have h_declaring : f.declaring = f'.declaring := h.declaring.inj h'.declaring
  obtain ⟨name, uniqueId, signature, isStatic, returnType, parameters, declaring, token, address⟩ :=
    f
  cases f'
  simp only [ResolvedMethod.mk.injEq]
  exact ⟨h.name.trans h'.name.symm, h.uniqueId.trans h'.uniqueId.symm,
    h.signature.trans h'.signature.symm, h.isStatic.trans h'.isStatic.symm, h_return, h_parameters,
    h_declaring, h.token.trans h'.token.symm, h.address.trans h'.address.symm⟩

/-! ### Lists of members -/

/-- **Fields**, from their terms. -/
theorem Sound.exists_declaredFields (h : arena.Sound m) (h_id : arena.UnfoldsClass k id)
    {row : TypeDefinition} {ts : List FieldTerm} {fields : List ResolvedField}
    (h_value : (Meaning.fields m maxDepth (.ofKey k) k row).value = some ts)
    (h_reads : List.Forall₂ arena.ReadsField ts fields) :
    ∃ rows declared, Metadata.IsRun m.fields row.fieldStart row.fieldCount rows ∧
      List.Forall₂ (arena.ConvertsField m maxDepth id k) rows declared ∧
      CanonicalOrder (·.name) declared fields := by
  obtain ⟨rows, h_rows, h_value⟩ := Meaning.bind_value_eq_some_iff.mp h_value
  obtain ⟨unsorted, h_unsorted, h_value⟩ := Meaning.bind_value_eq_some_iff.mp h_value
  cases h_value
  have h_rows := Metadata.isRun_of_memberRows (Meaning.read_value_eq_some_iff.mp h_rows)
  have h_unique : Relator.RightUnique arena.ReadsField := fun _ _ _ h_f h_f' => h_f.inj h_f'
  have h_name : ∀ t f, arena.ReadsField t f → f.name = t.name := fun _ _ h_f => h_f.name
  obtain ⟨declared, h_declared, rfl⟩ := exists_mergeSort_eq h_unique h_name h_reads
  refine ⟨rows, declared, h_rows, ?_, canonicalOrder_mergeSort _ _⟩
  -- each row has its term, and each term its field
  have h_convert : ∀ row t f, (Meaning.field m maxDepth (.ofKey k) k row).value = some t →
      arena.ReadsField t f → arena.ConvertsField m maxDepth id k row f :=
    fun _ _ _ h_term h_field => h.convertsField h_id h_term h_field
  exact forall₂_comp h_convert (Meaning.forall₂_of_mapM_value h_unsorted) h_declared

/-- A method that is read from a term is the one without identifier if the term has none. -/
theorem ReadsMethod.unidentified {t : MethodTerm} {id : String} {f : ResolvedMethod}
    (h : arena.ReadsMethod { t with uniqueId := id } f) (h_none : t.uniqueId = "") :
    arena.ReadsMethod t f.unidentified :=
  { h with uniqueId := h_none.symm }

/-- Methods that were sorted and told apart, taken back to the order of their terms. -/
theorem exists_declared_of_identify {unsorted : List MethodTerm} {methods : List ResolvedMethod}
    (h_none : ∀ t ∈ unsorted, t.uniqueId = "")
    (h_reads : List.Forall₂ arena.ReadsMethod
      (Meaning.identify (unsorted.mergeSort fun t t' => t.signature ≤ t'.signature)) methods) :
    ∃ declared, List.Forall₂ arena.ReadsMethod unsorted declared ∧ Identified methods ∧
      methods.map (·.unidentified) =
        declared.mergeSort fun f f' => f.signature ≤ f'.signature := by
  have h_each : ∀ t ∈ unsorted, ∃ f, arena.ReadsMethod t f := by
    intro t h_t
    obtain ⟨id, h_mem⟩ := Meaning.exists_mem_identify (List.mem_mergeSort.mpr h_t)
    obtain ⟨f, -, h_f⟩ := exists_right_of_forall₂ h_reads h_mem
    exact ⟨f.unidentified, h_f.unidentified (h_none t h_t)⟩
  obtain ⟨declared, h_declared⟩ := exists_forall₂ h_each
  have h_sorted : List.Forall₂ arena.ReadsMethod
      (unsorted.mergeSort fun t t' => t.signature ≤ t'.signature)
      (declared.mergeSort fun f f' => f.signature ≤ f'.signature) :=
    forall₂_mergeSort h_declared fun t f t' f' h_f h_f' => by rw [h_f.signature, h_f'.signature]
  -- sorted and told apart, these are the methods again
  have h_methods : methods =
      Resolving.identify (declared.mergeSort fun f f' => f.signature ≤ f'.signature) :=
    List.right_unique_forall₂' (fun _ _ _ h_f h_f' => h_f.inj h_f') h_reads
      (Resolving.identify_forall₂ h_sorted)
  have h_bare : ∀ f ∈ declared, f.unidentified = f := by
    intro f h_f
    obtain ⟨t, h_t, h_read⟩ := exists_left_of_forall₂ h_declared h_f
    rw [ResolvedMethod.unidentified, ← h_none t h_t, ← h_read.uniqueId]
  refine ⟨declared, h_declared, ?_, ?_⟩
  · rw [h_methods]
    exact identified_identify _
  · rw [h_methods, Resolving.map_unidentified_identify]
    refine (List.map_congr_left fun f h_f => ?_).trans (List.map_id _)
    exact h_bare f (List.mem_mergeSort.mp h_f)

/-- The signature of a method is what would be written now if that of its term is. -/
theorem Sound.signature_of_reads (h : arena.Sound m) {t : MethodTerm} {f : ResolvedMethod}
    (h_reads : arena.ReadsMethod t f)
    (h_t : t.signature = Meaning.signature m t.isStatic t.returnType t.name t.parameters) :
    f.signature = Resolving.signature arena f.isStatic f.returnType f.name f.parameters := by
  have h_same := Resolving.signature_eq h t.isStatic h_reads.returnType t.name h_reads.parameters
  rw [← h_t, ← h_reads.signature, ← h_reads.isStatic, ← h_reads.name] at h_same
  exact h_same.symm

/-- **Methods**, from their terms. -/
theorem Sound.exists_declaredMethods (h : arena.Sound m) (h_id : arena.UnfoldsClass k id)
    (h_inst : c.isInstantiation = k.isInstantiation) (h_image : c.image = m.imageOf k.definition)
    {row : TypeDefinition} {ts : List MethodTerm} {methods : List ResolvedMethod}
    (h_value : (Meaning.methods m maxDepth (.ofKey k) k row).value = some ts)
    (h_reads : List.Forall₂ arena.ReadsMethod ts methods) :
    (∃ rows declared, Metadata.IsRun m.methods row.methodStart row.methodCount rows ∧
      List.Forall₂ (arena.ConvertsMethod m maxDepth id c k) rows declared ∧
      CanonicalOrder (·.signature) declared (methods.map (·.unidentified))) ∧
    Identified methods ∧
    ∀ f ∈ methods, f.signature =
      Resolving.signature arena f.isStatic f.returnType f.name f.parameters := by
  obtain ⟨rows, h_rows, h_value⟩ := Meaning.bind_value_eq_some_iff.mp h_value
  obtain ⟨unsorted, h_unsorted, h_value⟩ := Meaning.bind_value_eq_some_iff.mp h_value
  cases h_value
  have h_rows := Metadata.isRun_of_memberRows (Meaning.read_value_eq_some_iff.mp h_rows)
  have h_unsorted := Meaning.forall₂_of_mapM_value h_unsorted
  have h_plain : ∀ t ∈ unsorted, t.uniqueId = "" ∧
      t.signature = Meaning.signature m t.isStatic t.returnType t.name t.parameters := by
    intro t h_t
    obtain ⟨row, -, h_row⟩ := exists_left_of_forall₂ h_unsorted h_t
    exact Meaning.method_value h_row
  obtain ⟨declared, h_declared, h_identified, h_listed⟩ :=
    exists_declared_of_identify (fun t h_t => (h_plain t h_t).1) h_reads
  refine ⟨⟨rows, declared, h_rows, ?_, ?_⟩, h_identified, ?_⟩
  · -- each row has its term, and each term its method
    have h_convert : ∀ row t f, (Meaning.method m maxDepth (.ofKey k) k row).value = some t →
        arena.ReadsMethod t f → arena.ConvertsMethod m maxDepth id c k row f :=
      fun _ _ _ h_term h_method => h.convertsMethod h_id h_inst h_image h_term h_method
    exact forall₂_comp h_convert h_unsorted h_declared
  · rw [h_listed]
    exact canonicalOrder_mergeSort _ _
  · intro f h_f
    -- identifiers aside, the method is one of those that were declared
    have h_mem := List.mem_map_of_mem (f := ResolvedMethod.unidentified) h_f
    rw [h_listed, List.mem_mergeSort] at h_mem
    obtain ⟨t, h_t, h_read⟩ := exists_left_of_forall₂ h_declared h_mem
    have h_signature := h.signature_of_reads h_read (h_plain t h_t).2
    exact h_signature

/-- **Members of a class** are those that its definition names. -/
theorem Sound.exists_lists {config : Config} (h : arena.Sound m) (h_c : arena.class? id = some c)
    {members : Members} (h_means : arena.Means m config c.key members) :
    ∃ row k, m.typeDefinition c.definition = .ok row ∧ arena.keyTerm? c.key = some k ∧
      arena.Lists m config.maxGenericDepth id c k row members := by
  obtain ⟨k, t, h_k, h_value, h_reads⟩ := h_means
  obtain ⟨lineage, -, h_shows⟩ := h.shows_of_key h_c h_k
  have h_id : arena.UnfoldsClass k id := ⟨c, h_c, h_k⟩
  -- what the key means comes from the row, one kind of members after the other
  obtain ⟨row, h_row, h_value⟩ := Meaning.bind_value_eq_some_iff.mp h_value
  obtain ⟨underlying, -, h_value⟩ := Meaning.bind_value_eq_some_iff.mp h_value
  obtain ⟨fields, h_fields, h_value⟩ := Meaning.bind_value_eq_some_iff.mp h_value
  obtain ⟨methods, h_methods, h_value⟩ := Meaning.bind_value_eq_some_iff.mp h_value
  obtain ⟨nested, -, h_value⟩ := Meaning.bind_value_eq_some_iff.mp h_value
  cases h_value
  have h_row : m.typeDefinition c.definition = .ok row := by
    rw [ResolvedClass.definition, h_k.1]
    exact Meaning.read_value_eq_some_iff.mp h_row
  have h_fields := h.exists_declaredFields h_id h_fields h_reads.fields
  obtain ⟨h_methods, h_identified, h_signatures⟩ :=
    h.exists_declaredMethods h_id h_k.isInstantiation_eq h_shows.image h_methods h_reads.methods
  exact ⟨row, k, h_row, h.keyTerm?_eq h_k, h_fields, h_methods, h_identified, h_signatures⟩

end Reading

end Arena

namespace CellState

/-- **Members in order.** In every state that a caller can see, and in every state in the midst of
what callers and runs do, the fields and the methods of a class with members are those of the rows
that its definition names, each of them converted with the arguments of the class and none lost or
repeated; fields are in the order of their names and methods in that of their signatures, and what
has the same one is in table order. Every signature is what would be written in this state. -/
theorem members_listed (m : Metadata) (config : Config) :
    (∀ resolver, Resolver.Reachable m config resolver → ∀ id c members,
      resolver.arena.class? id = some c → c.members = some members →
        ∃ row k, m.typeDefinition c.definition = .ok row ∧
          resolver.arena.keyTerm? c.key = some k ∧
          resolver.arena.Lists m config.maxGenericDepth id c k row members) ∧
    ∀ state, Leads m config empty state → ∀ id c members,
      state.resolver.arena.class? id = some c → c.members = some members →
        ∃ row k, m.typeDefinition c.definition = .ok row ∧
          state.resolver.arena.keyTerm? c.key = some k ∧
          state.resolver.arena.Lists m config.maxGenericDepth id c k row members := by
  have h_states : ∀ state, Leads m config empty state → ∀ id c members,
      state.resolver.arena.class? id = some c → c.members = some members →
        ∃ row k, m.typeDefinition c.definition = .ok row ∧
          state.resolver.arena.keyTerm? c.key = some k ∧
          state.resolver.arena.Lists m config.maxGenericDepth id c k row members := by
    intro state h_leads id c members h_c h_members
    have h_kept := kept_empty.leads h_leads
    exact h_kept.sound.exists_lists h_c (h_kept.meant id c members h_c h_members)
  refine ⟨fun resolver h_reachable => ?_, h_states⟩
  obtain ⟨cells, h_leads⟩ := leads_of_reachable h_reachable
  exact h_states _ h_leads

end CellState

/-- `boxed` with its instantiation listed, where the second definition has fields called `b`, `a`
and `a`, and methods called `b`, `a` and `a`, which all take an argument. -/
def Metadata.boxedUnordered : Metadata :=
  { boxed with
    strings := ⟨⟨#[0x62, 0, 0x61, 0]⟩⟩
    typeDefinitions := #[
      nestedRow none,
      { nestedRow none with
        genericContainerIndex := some 0, fieldCount := 3, methodCount := 3 }]
    fields := #[⟨0, some 2, some 1⟩, ⟨2, some 1, some 2⟩, ⟨2, some 2, some 3⟩]
    methods := #[
      ⟨0, none, none, none, 0, none, none, none, 1, 0, 0, 0, 1⟩,
      ⟨2, none, none, none, 0, none, none, none, 2, 0, 0, 0, 1⟩,
      ⟨2, none, none, none, 0, none, none, none, 3, 0, 0, 0, 1⟩]
    parameters := #[⟨0, 0, some 2⟩]
    registration :=
      { boxed.registration with
        genericClasses := #[0x1000]
        types := #[⟨0, .genericInst, 0, false, false, .instantiation 0x1000⟩,
          ⟨0, .i4, 0, false, false, .none⟩,
          ⟨0, .var, 0, false, false, .parameter 0⟩] } }

namespace CellState

/-- The instantiation in `boxedUnordered` gets all of its members. -/
theorem members_listed_boxed :
    let config := { Config.minimal with materialize := true }
    let arena := (Resolver.empty.run .boxedUnordered config).arena
    ∃ c members row k, arena.class? ⟨2⟩ = some c ∧ c.members = some members ∧
      Metadata.boxedUnordered.typeDefinition 1 = .ok row ∧
      arena.keyTerm? c.key = some k ∧ k = Metadata.boxedKey ∧
      arena.Lists .boxedUnordered 4 ⟨2⟩ c k row members := by
  intro config arena
  have h_arena : arena = (Resolver.completeRange .boxedUnordered 4 0 3
      (Resolver.empty.start .boxedUnordered config)).arena :=
    congrArg Resolver.arena (Resolver.run_of_one_round (by decide +kernel) (by decide +kernel))
  have h_shown : (arena.class? ⟨2⟩).map (fun c =>
      (c.members.isSome, c.definition, arena.keyTerm? c.key)) =
        some (true, 1, some Metadata.boxedKey) := by
    rw [h_arena]
    decide +kernel
  obtain ⟨c, h_c, h_shown⟩ := Option.map_eq_some_iff.mp h_shown
  simp only [Prod.mk.injEq] at h_shown
  obtain ⟨h_members, h_definition, h_key⟩ := h_shown
  obtain ⟨members, h_members⟩ := Option.isSome_iff_exists.mp h_members
  have h_reachable : Resolver.Reachable .boxedUnordered config _ := .serve .run .empty trivial
  obtain ⟨row, k, h_row, h_k, h_lists⟩ :=
    (members_listed .boxedUnordered config).1 _ h_reachable ⟨2⟩ c members h_c h_members
  rw [h_definition] at h_row
  have h_boxed := Option.some.inj (h_k.symm.trans h_key)
  exact ⟨c, members, row, k, h_c, h_members, h_row, h_k, h_boxed, h_lists⟩

end CellState

end GlobalMetadata
