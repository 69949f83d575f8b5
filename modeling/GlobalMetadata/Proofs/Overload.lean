import GlobalMetadata.Proofs.Identity
import GlobalMetadata.Proofs.Publication
import Mathlib.Data.List.Nodup
import Std.Data.String.ToNat

/-!
# When overloads are told apart

A method identifier starts from a base, made of the name and the number of parameters. A base that
occurs once is an identifier as it stands, and one that occurs more often gets the rank of the
occurrence behind it. Two ranked identifiers never meet: a rank has no underscore in it, so that the
base and the rank can be read off again (`Name.withRank_inj`).

What can meet is a ranked identifier and a base that occurs once, since names may end like ranks:
`Foo` twice with one parameter and `Foo_1` once with one parameter make `Foo_1_1` twice. This is the
only way, and `Name.Apart` says that it does not happen. `Name.nodup_uniqueIds_iff` is the result:
identifiers are pairwise distinct exactly if the bases are apart.

The proof numbers the occurrences first (`Name.numbered`). A base and the number of an occurrence
never come twice, so that the identifiers are distinct exactly if writing such a pair down loses
nothing.

The methods of a class are given their identifiers when they are published, and never lose them. So
the same condition tells when a class finds each of its methods by its identifier
(`Resolver.methods_told_apart_iff`).
-/

namespace GlobalMetadata.Name

/-- A base with a rank behind it. -/
def withRank (base : String) (rank : Nat) : String :=
  base ++ "_" ++ rank.repr

/-- The identifiers that methods would have if all of them were told apart by that. -/
def bases (methods : List (String × Nat)) : List String :=
  methods.map fun (name, count) => baseId name count

/-- No base that occurs once is one that occurs more often with one of its ranks behind it. -/
def Apart (texts : List String) : Prop :=
  ∀ base rank, 1 < texts.count base → 0 < rank → rank ≤ texts.count base →
    texts.count (withRank base rank) ≠ 1

/-! ### Reading a rank off -/

theorem underscore_not_mem_repr (n : Nat) : '_' ∉ n.repr.toList := by
  intro h_mem
  rw [Nat.toList_repr] at h_mem
  have h_digit := Nat.isDigit_of_mem_toDigits (by decide) (by decide) h_mem
  exact absurd h_digit (by decide)

/-- The last occurrence of a letter cuts a text in one way only. -/
theorem append_cons_inj_of_not_mem {α : Type} {a : α} {as bs as' bs' : List α} (h : a ∉ bs)
    (h' : a ∉ bs') (h_eq : as ++ a :: bs = as' ++ a :: bs') : as = as' ∧ bs = bs' := by
  rcases List.append_eq_append_iff.mp h_eq with ⟨rest, h_as, h_bs⟩ | ⟨rest, h_as, h_bs⟩
  -- whatever lies between the two cuts has the letter in front and behind
  · cases rest with
    | nil => simp_all
    | cons b rest =>
      obtain ⟨-, rfl⟩ := List.cons.inj h_bs
      exact absurd (List.mem_append_right rest List.mem_cons_self) h
  · cases rest with
    | nil => simp_all
    | cons b rest =>
      obtain ⟨-, rfl⟩ := List.cons.inj h_bs
      exact absurd (List.mem_append_right rest List.mem_cons_self) h'

/-- **A ranked identifier shows its base and its rank.** -/
theorem withRank_inj {base base' : String} {rank rank' : Nat} :
    withRank base rank = withRank base' rank' ↔ base = base' ∧ rank = rank' := by
  refine ⟨fun h => ?_, fun ⟨h_base, h_rank⟩ => by rw [h_base, h_rank]⟩
  have h_chars : base.toList ++ '_' :: rank.repr.toList =
      base'.toList ++ '_' :: rank'.repr.toList := by
    have h_list := congrArg String.toList h
    simpa [withRank, String.toList_append] using h_list
  obtain ⟨h_base, h_rank⟩ := append_cons_inj_of_not_mem (underscore_not_mem_repr rank)
    (underscore_not_mem_repr rank') h_chars
  exact ⟨String.toList_inj.mp h_base, Nat.repr_injective (String.toList_inj.mp h_rank)⟩

/-! ### Counting -/

namespace Tally

theorem count_add (tally : Tally) (text other : String) :
    (tally.add text).count other = tally.count other + if text = other then 1 else 0 := by
  unfold add count
  rw [Std.ExtTreeMap.getD_insert]
  by_cases h_same : text = other
  · subst h_same
    simp
  · have h_compare : compare text other ≠ .eq := by
      intro h_eq
      exact h_same (Std.compare_eq_iff_eq.mp h_eq)
    simp [h_same, h_compare]

theorem count_foldl_add (texts : List String) (tally : Tally) (text : String) :
    (texts.foldl add tally).count text = tally.count text + texts.count text := by
  induction texts generalizing tally with
  | nil => rfl
  | cons head rest ih =>
    rw [List.foldl_cons, ih, count_add, List.count_cons]
    simp only [beq_iff_eq]
    omega

theorem count_ofList (texts : List String) (text : String) :
    (ofList texts).count text = texts.count text := by
  have h_empty : count ∅ text = 0 := Std.ExtTreeMap.getD_empty
  unfold ofList
  rw [count_foldl_add, h_empty, Nat.zero_add]

end Tally

/-! ### Numbering occurrences -/

/-- Each text with the number of its occurrence, counted from 1; `before` counts those in front. -/
def numbered : Tally → List String → List (String × Nat)
  | _, [] => []
  | before, text :: rest => (text, before.count text + 1) :: numbered (before.add text) rest

/-- An occurrence, written with its rank if there are several. -/
def written (all : Tally) : String × Nat → String
  | (base, rank) => if all.count base = 1 then base else withRank base rank

theorem written_ofList (texts : List String) (base : String) (rank : Nat) :
    written (.ofList texts) (base, rank) =
      if texts.count base = 1 then base else withRank base rank := by
  rw [← Tally.count_ofList]
  rfl

theorem ranked_eq_map_written (all before : Tally) (texts : List String) :
    ranked all before texts = (numbered before texts).map (written all) := by
  induction texts generalizing before with
  | nil => rfl
  | cons text rest ih =>
    rw [ranked, numbered, List.map_cons, ih]
    rfl

/-- The occurrences of a text are numbered on from those in front. -/
theorem mem_numbered {before : Tally} {texts : List String} {text : String} {number : Nat} :
    (text, number) ∈ numbered before texts ↔
      before.count text < number ∧ number ≤ before.count text + texts.count text := by
  induction texts generalizing before with
  | nil =>
    simp only [numbered, List.not_mem_nil, List.count_nil, false_iff]
    omega
  | cons head rest ih =>
    rw [numbered, List.mem_cons, ih, Tally.count_add, List.count_cons, Prod.mk.injEq]
    by_cases h_head : head = text
    · subst h_head
      simp only [true_and, if_true, beq_self_eq_true]
      omega
    · have h_ne : ¬ text = head := fun h_eq => h_head h_eq.symm
      simp only [h_ne, h_head, beq_iff_eq, if_false, false_and, false_or, Nat.add_zero]

theorem map_fst_numbered (before : Tally) (texts : List String) :
    (numbered before texts).map Prod.fst = texts := by
  induction texts generalizing before with
  | nil => rfl
  | cons text rest ih => rw [numbered, List.map_cons, ih]

theorem nodup_numbered (before : Tally) (texts : List String) : (numbered before texts).Nodup := by
  induction texts generalizing before with
  | nil => exact List.nodup_nil
  | cons head rest ih =>
    refine List.nodup_cons.mpr ⟨fun h_mem => ?_, ih (before.add head)⟩
    -- what comes later has a larger number
    have h_lt := (mem_numbered.mp h_mem).1
    rw [Tally.count_add, if_pos rfl] at h_lt
    exact Nat.lt_irrefl _ h_lt

theorem mem_numbered_empty {texts : List String} {text : String} {number : Nat} :
    (text, number) ∈ numbered ∅ texts ↔ 0 < number ∧ number ≤ texts.count text := by
  have h_empty : Tally.count ∅ text = 0 := Std.ExtTreeMap.getD_empty
  rw [mem_numbered, h_empty, Nat.zero_add]

/-! ### Identifiers -/

/-- Occurrences of one text are written differently. -/
theorem eq_of_written_eq {texts : List String} {p q : String × Nat} (h_p : p ∈ numbered ∅ texts)
    (h_q : q ∈ numbered ∅ texts) (h_base : p.1 = q.1)
    (h_same : written (.ofList texts) p = written (.ofList texts) q) : p = q := by
  obtain ⟨base, rank⟩ := p
  obtain ⟨_, rank'⟩ := q
  obtain rfl : base = _ := h_base
  rw [written_ofList, written_ofList] at h_same
  by_cases h_once : texts.count base = 1
  · -- an occurrence that is the only one is the first
    obtain ⟨h_pos, h_le⟩ := mem_numbered_empty.mp h_p
    obtain ⟨h_pos', h_le'⟩ := mem_numbered_empty.mp h_q
    have h_rank : rank = rank' := by omega
    rw [h_rank]
  · rw [if_neg h_once, if_neg h_once] at h_same
    rw [(withRank_inj.mp h_same).2]

/-- Texts are apart exactly if occurrences of different ones are written differently. -/
theorem apart_iff {texts : List String} :
    Apart texts ↔ ∀ p ∈ numbered ∅ texts, ∀ q ∈ numbered ∅ texts,
      written (.ofList texts) p = written (.ofList texts) q → p.1 = q.1 := by
  constructor
  · rintro h_apart ⟨base, rank⟩ h_p ⟨base', rank'⟩ h_q h_same
    obtain ⟨h_pos, h_le⟩ := mem_numbered_empty.mp h_p
    obtain ⟨h_pos', h_le'⟩ := mem_numbered_empty.mp h_q
    rw [written_ofList, written_ofList] at h_same
    by_cases h_once : texts.count base = 1
    · by_cases h_once' : texts.count base' = 1
      · rwa [if_pos h_once, if_pos h_once'] at h_same
      · -- the first one looks like the second one with its rank
        rw [if_pos h_once, if_neg h_once'] at h_same
        rw [h_same] at h_once
        exact absurd h_once (h_apart base' rank' (by omega) h_pos' h_le')
    · by_cases h_once' : texts.count base' = 1
      · rw [if_neg h_once, if_pos h_once'] at h_same
        rw [← h_same] at h_once'
        exact absurd h_once' (h_apart base rank (by omega) h_pos h_le)
      · rw [if_neg h_once, if_neg h_once'] at h_same
        exact (withRank_inj.mp h_same).1
  · intro h_fst base rank h_many h_pos h_le h_once
    -- the ranked occurrence and the base that looks like it
    have h_ranked : (base, rank) ∈ numbered ∅ texts := mem_numbered_empty.mpr ⟨h_pos, h_le⟩
    have h_bare : (withRank base rank, 1) ∈ numbered ∅ texts :=
      mem_numbered_empty.mpr ⟨Nat.one_pos, Nat.le_of_eq h_once.symm⟩
    have h_same : written (.ofList texts) (base, rank) =
        written (.ofList texts) (withRank base rank, 1) := by
      rw [written_ofList, written_ofList, if_pos h_once, if_neg (Nat.ne_of_gt h_many)]
    have h_base : base = withRank base rank := h_fst _ h_ranked _ h_bare h_same
    rw [← h_base] at h_once
    exact Nat.ne_of_gt h_many h_once

theorem uniqueIds_eq_map_written (methods : List (String × Nat)) :
    uniqueIds methods =
      (numbered ∅ (bases methods)).map (written (.ofList (bases methods))) :=
  ranked_eq_map_written _ _ _

theorem length_uniqueIds (methods : List (String × Nat)) :
    (uniqueIds methods).length = methods.length := by
  have h_length := congrArg List.length (map_fst_numbered ∅ (bases methods))
  rw [List.length_map] at h_length
  rw [uniqueIds_eq_map_written, List.length_map, h_length, bases, List.length_map]

/-- **Distinct identifiers.** The identifiers of methods are pairwise distinct exactly if their
bases are apart. -/
theorem nodup_uniqueIds_iff (methods : List (String × Nat)) :
    (uniqueIds methods).Nodup ↔ Apart (bases methods) := by
  rw [uniqueIds_eq_map_written, List.nodup_map_iff_inj_on (nodup_numbered _ _), apart_iff]
  constructor
  · intro h_inj p h_p q h_q h_same
    rw [h_inj p h_p q h_q h_same]
  · intro h_fst p h_p q h_q h_same
    exact eq_of_written_eq h_p h_q (h_fst p h_p q h_q h_same) h_same

/-- A name that ends like a rank meets an overload of the name without it. -/
example : uniqueIds [("Foo", 1), ("Foo", 1), ("Foo_1", 1)] = ["Foo_1_1", "Foo_1_2", "Foo_1_1"] := by
  cbv

end GlobalMetadata.Name

namespace GlobalMetadata

/-! ### The methods of a class -/

/-- What the identifier of a method is made from. -/
def ResolvedMethod.overload (f : ResolvedMethod) : String × Nat :=
  (f.name, f.parameters.length)

/-- What the methods of a class are told apart by. -/
def ResolvedClass.overloads (c : ResolvedClass) : List (String × Nat) :=
  c.methods.map ResolvedMethod.overload

/-- Methods have the identifiers that belong to their names and numbers of parameters. -/
def Identified (methods : List ResolvedMethod) : Prop :=
  methods.map (·.uniqueId) = Name.uniqueIds (methods.map ResolvedMethod.overload)

theorem handOut_uniqueIds {fs : List ResolvedMethod} {ids : List String}
    (h_length : fs.length = ids.length) :
    (List.zipWith (fun f id => { f with uniqueId := id }) fs ids).map (·.uniqueId) = ids ∧
      (List.zipWith (fun f id => { f with uniqueId := id }) fs ids).map ResolvedMethod.overload =
        fs.map ResolvedMethod.overload := by
  induction fs generalizing ids with
  | nil =>
    cases ids with
    | nil => exact ⟨rfl, rfl⟩
    | cons id ids => cases h_length
  | cons f fs ih =>
    cases ids with
    | nil => cases h_length
    | cons id ids =>
      obtain ⟨h_ids, h_overloads⟩ := ih (Nat.succ.inj h_length)
      rw [List.zipWith_cons_cons, List.map_cons, List.map_cons, List.map_cons, h_ids, h_overloads]
      exact ⟨rfl, rfl⟩

theorem identified_identify (fs : List ResolvedMethod) : Identified (Resolving.identify fs) := by
  have h_length : fs.length = (Name.uniqueIds (fs.map ResolvedMethod.overload)).length := by
    rw [Name.length_uniqueIds, List.length_map]
  obtain ⟨h_ids, h_overloads⟩ := handOut_uniqueIds h_length
  exact h_ids.trans (congrArg Name.uniqueIds h_overloads.symm)

/-- Resolving the members of a class tells its methods apart last. -/
theorem identified_members {m : Metadata} {maxDepth : Nat} {arena : Arena} {id : ClassId}
    {c : ResolvedClass} {members : Members}
    (h : Resolving.result (Resolving.members m maxDepth id c) arena = .ok members) :
    Identified members.methods := by
  unfold Resolving.members at h
  obtain ⟨row, -, h, -⟩ := Resolving.exists_of_bind_eq_ok h
  obtain ⟨underlying, -, h, -⟩ := Resolving.exists_of_bind_eq_ok h
  obtain ⟨fields, -, h, -⟩ := Resolving.exists_of_bind_eq_ok h
  obtain ⟨methods, h_methods, h, -⟩ := Resolving.exists_of_bind_eq_ok h
  obtain ⟨nested, -, h, -⟩ := Resolving.exists_of_bind_eq_ok h
  cases h
  unfold Resolving.methods at h_methods
  obtain ⟨rows, -, h_methods, -⟩ := Resolving.exists_of_bind_eq_ok h_methods
  obtain ⟨fs, -, h_methods, -⟩ := Resolving.exists_of_bind_eq_ok h_methods
  cases h_methods
  exact identified_identify _

section Methods

variable {c : ResolvedClass}

/-- A class finds its methods if no identifier belongs to two of them. -/
theorem method?_of_nodup (h_nodup : (c.methods.map (·.uniqueId)).Nodup) {f : ResolvedMethod}
    (h_f : f ∈ c.methods) : c.method? f.uniqueId = some f := by
  have h_some : (c.method? f.uniqueId).isSome := by
    rw [ResolvedClass.method?, List.find?_isSome]
    exact ⟨f, h_f, decide_eq_true rfl⟩
  obtain ⟨g, h_g⟩ := Option.isSome_iff_exists.mp h_some
  unfold ResolvedClass.method? at h_g
  have h_id := List.find?_some h_g
  have h_same : g.uniqueId = f.uniqueId := of_decide_eq_true h_id
  -- what is found has the identifier, and so it is the method
  have h_eq := List.inj_on_of_nodup_map h_nodup (List.mem_of_find?_eq_some h_g) h_f h_same
  rwa [h_eq] at h_g

/-- The occurrences of a base are methods of the class. -/
theorem exists_method_of_mem_numbered (h_ids : Identified c.methods) {p : String × Nat}
    (h_p : p ∈ Name.numbered ∅ (Name.bases c.overloads)) :
    ∃ f ∈ c.methods, f.uniqueId = Name.written (.ofList (Name.bases c.overloads)) p ∧
      Name.baseId f.overload.1 f.overload.2 = p.1 := by
  have h_pairs : c.methods.map (fun f => (f.uniqueId, Name.baseId f.overload.1 f.overload.2)) =
      (Name.numbered ∅ (Name.bases c.overloads)).map
        fun p => (Name.written (.ofList (Name.bases c.overloads)) p, p.1) := by
    rw [← List.zip_map', ← List.zip_map', Name.map_fst_numbered,
      ← Name.uniqueIds_eq_map_written, h_ids, Name.bases, ResolvedClass.overloads, List.map_map]
    rfl
  have h_mem := List.mem_map_of_mem
    (f := fun p => (Name.written (.ofList (Name.bases c.overloads)) p, p.1)) h_p
  rw [← h_pairs] at h_mem
  obtain ⟨f, h_f, h_pair⟩ := List.mem_map.mp h_mem
  exact ⟨f, h_f, (Prod.mk.inj h_pair).1, (Prod.mk.inj h_pair).2⟩

/-- **Looking methods up.** A class finds each of its methods by its identifier exactly if the bases
of their identifiers are apart. -/
theorem method?_eq_iff (h_ids : Identified c.methods) :
    (∀ f ∈ c.methods, c.method? f.uniqueId = some f) ↔ Name.Apart (Name.bases c.overloads) := by
  constructor
  · intro h_found
    refine Name.apart_iff.mpr fun p h_p q h_q h_same => ?_
    obtain ⟨f, h_f, h_id, h_base⟩ := exists_method_of_mem_numbered h_ids h_p
    obtain ⟨g, h_g, h_id', h_base'⟩ := exists_method_of_mem_numbered h_ids h_q
    -- both methods are what is found under the one identifier
    have h_first := h_found f h_f
    rw [h_id, h_same, ← h_id', h_found g h_g] at h_first
    rw [← h_base, ← h_base', Option.some.inj h_first]
  · intro h_apart f h_f
    refine method?_of_nodup ?_ h_f
    rw [h_ids]
    exact (Name.nodup_uniqueIds_iff _).mpr h_apart

end Methods

/-- A class that a caller can see has identified methods. -/
theorem Resolver.Reachable.identified {m : Metadata} {config : Config} {resolver : Resolver}
    (h : Reachable m config resolver) {id : ClassId} {c : ResolvedClass}
    (h_c : resolver.arena.class? id = some c) : Identified c.methods := by
  have h_publishes : resolver.arena.Publishes fun members => Identified members.methods :=
    h.publishes fun _ _ _ _ h_ok => identified_members h_ok
  rw [ResolvedClass.methods]
  cases h_members : c.members with
  | none => rfl
  | some members => exact h_publishes id c members h_c h_members

/-- **Telling methods apart.** Identifiers are pairwise distinct exactly if the bases that they are
made from are apart; and exactly then a class finds each of its methods by its identifier. -/
theorem Resolver.methods_told_apart_iff (m : Metadata) (config : Config) :
    (∀ methods, (Name.uniqueIds methods).Nodup ↔ Name.Apart (Name.bases methods)) ∧
      ∀ resolver, Reachable m config resolver → ∀ id c, resolver.arena.class? id = some c →
        ((c.methods.map (·.uniqueId)).Nodup ↔ Name.Apart (Name.bases c.overloads)) ∧
          ((∀ f ∈ c.methods, c.method? f.uniqueId = some f) ↔
            Name.Apart (Name.bases c.overloads)) := by
  refine ⟨Name.nodup_uniqueIds_iff, fun resolver h_resolver id c h_c => ?_⟩
  have h_ids : Identified c.methods := h_resolver.identified h_c
  refine ⟨?_, method?_eq_iff h_ids⟩
  rw [h_ids]
  exact Name.nodup_uniqueIds_iff c.overloads

end GlobalMetadata
