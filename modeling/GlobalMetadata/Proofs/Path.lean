import GlobalMetadata.Proofs.Origin

/-!
# Paths of classes

The path of a class is written when the class is created: that of the class around it, one more
separator, and an identifier made of its own name. Nothing reads the types around it a second time,
and a class that is found again keeps the path it has.

What comes out is the path of the whole chain of declaring types (`Arena.NamedAlong`): the
identifiers made of the parts of the outermost namespace, and then those made of the names along the
chain. An instantiation has the path of its definition.

No identifier contains a separator, whatever the name is that it is made of, so that a path can be
taken apart again (`Name.pathParts_intercalate`).

* `Name.isIdentifier_sanitizeChars`: what is made of a name is an identifier;
* `Lineage.qualifiedName_eq`: the induction along the chain;
* `CellState.named_along`: every class in every state.
-/

namespace GlobalMetadata

open Relation

namespace Name

/-! ### Identifiers -/

/-- An identifier: a letter or an underscore, and then letters, digits and underscores. -/
def IsIdentifier (text : List Char) : Prop :=
  ∃ c rest, text = c :: rest ∧ (c.isAlpha = true ∨ c = '_') ∧
    ∀ c' ∈ rest, c'.isAlphanum = true ∨ c' = '_'

theorem isWordChar_iff {c : Char} : isWordChar c = true ↔ c.isAlphanum = true ∨ c = '_' := by
  simp [isWordChar]

/-- **Identifiers.** Whatever the characters of a name are, an identifier is made of them. -/
theorem isIdentifier_sanitizeChars (text : List Char) : IsIdentifier (sanitizeChars text) := by
  -- every character is replaced unless it may stay
  have h_word : ∀ c ∈ text.map fun c => if isWordChar c then c else '_',
      c.isAlphanum = true ∨ c = '_' := by
    intro c h_c
    obtain ⟨c₀, -, rfl⟩ := List.mem_map.mp h_c
    by_cases h_c₀ : isWordChar c₀ = true
    · rw [if_pos h_c₀]
      exact isWordChar_iff.mp h_c₀
    · rw [if_neg h_c₀]
      exact .inr rfl
  unfold sanitizeChars
  split
  · exact ⟨'_', [], rfl, .inr rfl, by simp⟩
  next c rest h_text =>
    rw [h_text] at h_word
    by_cases h_digit : c.isDigit = true
    · -- a digit may stand anywhere but in front
      rw [if_pos h_digit]
      exact ⟨'_', c :: rest, rfl, .inr rfl, h_word⟩
    · rw [if_neg h_digit]
      refine ⟨c, rest, rfl, ?_, fun c' h_c' => h_word c' (List.mem_cons_of_mem c h_c')⟩
      have h_c := h_word c List.mem_cons_self
      simpa [Char.isAlphanum, h_digit] using h_c

theorem isIdentifier_sanitize (name : String) : IsIdentifier (sanitize name).toList := by
  rw [sanitize, String.toList_ofList]
  exact isIdentifier_sanitizeChars name.toList

theorem IsIdentifier.word {text : List Char} (h : IsIdentifier text) :
    ∀ c ∈ text, c.isAlphanum = true ∨ c = '_' := by
  obtain ⟨c, rest, rfl, h_c, h_rest⟩ := h
  intro c' h_c'
  rcases List.mem_cons.mp h_c' with rfl | h_c'
  · exact h_c.imp_left fun h_alpha => by rw [Char.isAlphanum, h_alpha, Bool.true_or]
  · exact h_rest c' h_c'

theorem IsIdentifier.colon_not_mem {text : List Char} (h : IsIdentifier text) : ':' ∉ text :=
  fun h_colon => absurd (h.word ':' h_colon) (by decide)

/-! ### Paths -/

/-- The parts between the dots are those that splitting at the dots gives. -/
theorem dotted_eq (text : List Char) : dotted text = text.splitOn '.' := by
  induction text with
  | nil => rfl
  | cons c rest ih =>
    rw [dotted, ih, List.splitOn, List.splitOn, List.splitOnP_cons_eq_if_modifyHead]
    by_cases h_c : c = '.'
    · simp [h_c]
    · rw [if_neg h_c, if_neg (by simpa using h_c)]
      -- there is always a first part
      cases h_rest : List.splitOnP (· == '.') rest with
      | nil => exact absurd h_rest (List.splitOnP_ne_nil _ _)
      | cons part parts => rfl

/-- The identifiers of a path: those of the parts of the namespace between its dots, or `_` when
there is no namespace, and then those of the names from the outermost type inwards. -/
def path (namespaceName : String) (names : List String) : List String :=
  (if namespaceName = "" then ["_"]
  else (namespaceName.toList.splitOn '.').map fun part => String.ofList (sanitizeChars part)) ++
    names.map sanitize

theorem path_eq (namespaceName : String) (names : List String) :
    path namespaceName names = segments namespaceName ++ names.map sanitize := by
  rw [path, segments, dotted_eq]

theorem segments_ne_nil (namespaceName : String) : segments namespaceName ≠ [] := by
  unfold segments
  split
  · exact List.cons_ne_nil _ _
  · rw [dotted_eq]
    simp [List.splitOn, List.splitOnP_ne_nil]

theorem path_ne_nil (namespaceName : String) (names : List String) :
    path namespaceName names ≠ [] := by
  rw [path_eq]
  exact List.append_ne_nil_of_left_ne_nil (segments_ne_nil namespaceName) _

theorem isIdentifier_of_mem_path {namespaceName : String} {names : List String} {part : String}
    (h : part ∈ path namespaceName names) : IsIdentifier part.toList := by
  rcases List.mem_append.mp h with h_segment | h_name
  · split at h_segment
    · rw [List.mem_singleton.mp h_segment]
      exact ⟨'_', [], rfl, .inr rfl, by simp⟩
    · obtain ⟨text, -, rfl⟩ := List.mem_map.mp h_segment
      rw [String.toList_ofList]
      exact isIdentifier_sanitizeChars text
  · obtain ⟨name, -, rfl⟩ := List.mem_map.mp h_name
    exact isIdentifier_sanitize name

/-- One more name makes a path one identifier longer. -/
theorem intercalate_path_concat (namespaceName : String) (names : List String) (name : String) :
    separator.intercalate (path namespaceName (names ++ [name])) =
      separator.intercalate (path namespaceName names) ++ separator ++ sanitize name := by
  calc separator.intercalate (path namespaceName (names ++ [name]))
      = separator.intercalate (path namespaceName names ++ [sanitize name]) := by
        rw [path, path, List.map_append, List.append_assoc]
        rfl
    _ = separator.intercalate (path namespaceName names) ++ separator ++
          separator.intercalate [sanitize name] :=
        String.intercalate_append_of_ne_nil (path_ne_nil _ _) (List.cons_ne_nil _ _)
    _ = _ := by rw [String.intercalate_singleton]

/-! ### Taking paths apart -/

/-- The parts of a text between its separators, which are looked for from the left. -/
def pathParts : List Char → List (List Char)
  | [] => [[]]
  | ':' :: ':' :: rest => [] :: pathParts rest
  | c :: rest => (pathParts rest).modifyHead (c :: ·)

/-- A part without a colon is found whole. -/
theorem pathParts_append {part : List Char} (h : ':' ∉ part) (rest : List Char) :
    pathParts (part ++ ':' :: ':' :: rest) = part :: pathParts rest := by
  induction part with
  | nil => rw [List.nil_append, pathParts]
  | cons c part ih =>
    obtain ⟨h_c, h_part⟩ := not_or.mp (mt List.mem_cons.mpr h)
    rw [List.cons_append, pathParts, ih h_part]
    · rfl
    · -- a part that begins with a colon is none
      rintro tail rfl -
      exact h_c rfl

theorem pathParts_of_not_mem {part : List Char} (h : ':' ∉ part) : pathParts part = [part] := by
  induction part with
  | nil => rfl
  | cons c part ih =>
    obtain ⟨h_c, h_part⟩ := not_or.mp (mt List.mem_cons.mpr h)
    rw [pathParts, ih h_part]
    · rfl
    · rintro tail rfl -
      exact h_c rfl

/-- **Splitting undoes joining**, as long as there is no colon in what was joined. -/
theorem pathParts_intercalate {parts : List (List Char)} (h : ∀ part ∈ parts, ':' ∉ part)
    (h_some : parts ≠ []) : pathParts ([':', ':'].intercalate parts) = parts := by
  induction parts with
  | nil => exact absurd rfl h_some
  | cons part parts ih =>
    have h_part : ':' ∉ part := h part List.mem_cons_self
    cases parts with
    | nil => rw [List.intercalate_singleton, pathParts_of_not_mem h_part]
    | cons next parts =>
      rw [List.intercalate_cons_cons, List.append_assoc]
      refine (pathParts_append h_part _).trans (congrArg (part :: ·) (ih ?_ ?_))
      · exact fun p h_p => h p (List.mem_cons_of_mem part h_p)
      · exact List.cons_ne_nil _ _

/-- A path is taken apart into its identifiers. -/
theorem pathParts_path (namespaceName : String) (names : List String) :
    pathParts (separator.intercalate (path namespaceName names)).toList =
      (path namespaceName names).map String.toList := by
  rw [String.toList_intercalate]
  refine pathParts_intercalate ?_ ?_
  · intro part h_part
    obtain ⟨text, h_text, rfl⟩ := List.mem_map.mp h_part
    exact (isIdentifier_of_mem_path h_text).colon_not_mem
  · exact mt List.map_eq_nil_iff.mp (path_ne_nil namespaceName names)

end Name

/-! ### Chains of declaring types -/

namespace Lineage

/-- The names along a chain, from the outermost type inwards. -/
def names : Lineage → List String
  | .top _ frame => [frame.name]
  | .nested frame outer => outer.names ++ [frame.name]

/-- **The induction along the chain.** What is written one type at a time is the path of all. -/
theorem qualifiedName_eq (lineage : Lineage) :
    lineage.qualifiedName =
      Name.separator.intercalate (Name.path lineage.namespaceName lineage.names) := by
  induction lineage with
  | top namespaceName frame =>
    rw [names, ← List.nil_append [frame.name], Name.intercalate_path_concat, Name.path_eq,
      List.map_nil, List.append_nil]
    rfl
  | nested frame outer ih =>
    rw [names, namespaceName, Name.intercalate_path_concat, ← ih]
    rfl

end Lineage

namespace Metadata

/-- The types around a definition, from the outermost one inwards, up to the definition itself. -/
structure DeclaringChain (m : Metadata) (definition : Nat) (chain : List Nat) : Prop where
  /-- Nothing declares the first one. -/
  outermost : ∃ d row, chain.head? = some d ∧ m.typeDefinition d = .ok row ∧
    row.declaringTypeIndex = none
  /-- Each one declares the next one. -/
  declares : chain.IsChain fun outer inner => m.Within inner outer
  /-- The last one is the definition. -/
  innermost : chain.getLast? = some definition

/-- The name of a definition can be read. -/
def Named (m : Metadata) (definition : Nat) (name : String) : Prop :=
  ∃ row, m.typeDefinition definition = .ok row ∧ m.string row.nameIndex = .ok name

/-- The namespace that the row of a definition names can be read. -/
def InNamespace (m : Metadata) (definition : Nat) (namespaceName : String) : Prop :=
  ∃ row, m.typeDefinition definition = .ok row ∧ m.string row.namespaceIndex = .ok namespaceName

variable {m : Metadata} {definition : Nat} {lineage : Lineage}

/-- A chain of names is as long as the chain of types that it is read off. -/
theorem names_of_lineageOf {row : TypeDefinition} {outer : Option Lineage}
    (h : m.lineageOf definition row outer = .ok lineage) :
    ∃ name, m.string row.nameIndex = .ok name ∧
      lineage.names = outer.elim [] Lineage.names ++ [name] ∧
      m.namespaceOf row (outer.map (·.namespaceName)) = .ok lineage.namespaceName := by
  obtain ⟨name, h_name, h⟩ := except_bind_eq_ok_iff.mp h
  obtain ⟨namespaceName, h_namespace, h⟩ := except_bind_eq_ok_iff.mp h
  obtain ⟨rows, -, h⟩ := except_bind_eq_ok_iff.mp h
  obtain ⟨parameters, -, h⟩ := except_bind_eq_ok_iff.mp h
  cases h
  refine ⟨name, h_name, ?_, ?_⟩
  · cases outer <;> rfl
  · rw [h_namespace, (namespaceName_make _ h_namespace).1]

/-- **The chain of a definition** in the tables, with the names along it. -/
theorem Traces.exists_declaringChain (h : m.Traces definition lineage) :
    ∃ chain, m.DeclaringChain definition chain ∧ List.Forall₂ m.Named chain lineage.names ∧
      ∀ d ∈ chain.head?, m.InNamespace d lineage.namespaceName := by
  induction h with
  | @top definition row lineage h_row h_alone h_made =>
    obtain ⟨name, h_name, h_names, h_namespace⟩ := names_of_lineageOf h_made
    refine ⟨[definition], ⟨⟨definition, row, rfl, h_row, h_alone⟩, .singleton _, rfl⟩, ?_, ?_⟩
    · rw [h_names]
      exact .cons ⟨row, h_row, h_name⟩ .nil
    · intro d h_d
      cases h_d
      exact ⟨row, h_row, h_namespace⟩
  | @nested definition outer row lineage around h_row h_inside h_around h_made ih =>
    obtain ⟨name, h_name, h_names, h_namespace⟩ := names_of_lineageOf h_made
    obtain ⟨chain, h_declaring, h_chain, h_outermost⟩ := ih
    obtain ⟨⟨d, rowOfFirst, h_first, h_alone⟩, h_declares, h_last⟩ := h_declaring
    have h_head : (chain ++ [definition]).head? = some d := by
      rw [List.head?_append, h_first]
      rfl
    refine ⟨chain ++ [definition], ⟨⟨d, rowOfFirst, h_head, h_alone⟩, ?_, ?_⟩, ?_, ?_⟩
    · -- the type around the new one is the last of the chain so far
      refine List.isChain_append.mpr ⟨h_declares, .singleton _, ?_⟩
      intro last h_mem inner h_inner
      rw [h_last] at h_mem
      cases h_mem
      cases h_inner
      exact ⟨row, h_row, h_inside⟩
    · exact List.getLast?_concat
    · rw [h_names]
      exact List.rel_append h_chain (.cons ⟨row, h_row, h_name⟩ .nil)
    · -- a nested type takes the namespace of the type around it
      rw [h_head, ← h_first, ← Except.ok.inj h_namespace]
      exact h_outermost

end Metadata

/-! ### Classes -/

namespace Arena

/-- A class has the name that the types around its definition give it. -/
structure NamedAlong (m : Metadata) (arena : Arena) (c : ResolvedClass) (chain : List Nat)
    (names : List String) : Prop where
  declared : m.DeclaringChain c.definition chain
  named : List.Forall₂ m.Named chain names
  /-- The namespace is that of the outermost type. -/
  namespaceName : ∀ d ∈ chain.head?, m.InNamespace d c.namespaceName
  /-- The path is that of the namespace and the names. -/
  qualifiedName : c.qualifiedName = Name.separator.intercalate (Name.path c.namespaceName names)
  /-- Every part of it is an identifier. -/
  identifiers : ∀ part ∈ Name.path c.namespaceName names, Name.IsIdentifier part.toList
  /-- Splitting it gives its parts back. -/
  parts : Name.pathParts c.qualifiedName.toList =
    (Name.path c.namespaceName names).map String.toList
  /-- The class of the definition is there, and it has the same path. -/
  shared : ∃ base b, arena.find? (.ofDefinition c.definition) = some base ∧
    arena.class? base = some b ∧ b.qualifiedName = c.qualifiedName

variable {m : Metadata} {arena : Arena} {id : ClassId} {c : ResolvedClass}

/-- In a sound arena a class shows the chain of its definition, and so does the class of that. -/
theorem Sound.exists_namedAlong (h : arena.Sound m) (h_based : arena.Based)
    (h_c : arena.class? id = some c) : ∃ chain names, arena.NamedAlong m c chain names := by
  obtain ⟨lineage, k, h_traces, h_shows⟩ := h.classes id c h_c
  have h_definition : c.definition = k.definition := h_shows.key.1
  obtain ⟨chain, h_chain, h_names, h_namespace⟩ := h_traces.exists_declaringChain
  have h_path : c.qualifiedName =
      Name.separator.intercalate (Name.path c.namespaceName lineage.names) := by
    rw [h_shows.qualifiedName, h_shows.namespaceName, lineage.qualifiedName_eq]
  refine ⟨chain, lineage.names, ?_, h_names, ?_, h_path, ?_, ?_, ?_⟩
  · rwa [h_definition]
  · rwa [h_shows.namespaceName]
  · exact fun part h_part => Name.isIdentifier_of_mem_path h_part
  · rw [h_path]
    exact Name.pathParts_path _ _
  · obtain ⟨base, h_base⟩ := h_based id c h_c
    obtain ⟨b, lineage', h_b, -, h_traces', h_shows'⟩ := h.shows_of_definition h_base
    rw [h_definition] at h_traces'
    -- a definition has only one chain
    cases h_traces'.unique h_traces
    exact ⟨base, b, h_base, h_b, h_shows'.qualifiedName.trans h_shows.qualifiedName.symm⟩

end Arena

namespace CellState

/-- **Paths of classes.** In every state that a caller can see, and in every state in the midst of
what callers and runs do, the namespace of a class is that of the outermost type around its
definition, and its path is made of the identifiers of that namespace and of the names along the
chain, which splitting gives back. An instantiation has the path of the class of its definition. -/
theorem named_along (m : Metadata) (config : Config) :
    (∀ resolver, Resolver.Reachable m config resolver → ∀ id c,
      resolver.arena.class? id = some c →
        ∃ chain names, resolver.arena.NamedAlong m c chain names) ∧
    ∀ state, Leads m config empty state → ∀ id c,
      state.resolver.arena.class? id = some c →
        ∃ chain names, state.resolver.arena.NamedAlong m c chain names := by
  have h_states : ∀ state, Leads m config empty state → ∀ id c,
      state.resolver.arena.class? id = some c →
        ∃ chain names, state.resolver.arena.NamedAlong m c chain names := by
    intro state h_leads id c h_c
    exact (kept_empty.leads h_leads).sound.exists_namedAlong (based h_leads) h_c
  refine ⟨fun resolver h_reachable => ?_, h_states⟩
  obtain ⟨cells, h_leads⟩ := leads_of_reachable h_reachable
  exact h_states _ h_leads

end CellState

/-- The definitions of `boxed`, the second one inside the first one, with the instantiation listed.
The names in the heap are `é.2b`, `7up` and the empty one: the namespace and the names of the two
definitions. -/
def Metadata.boxedInside : Metadata :=
  { boxed with
    strings := ⟨⟨#[0xC3, 0xA9, 0x2E, 0x32, 0x62, 0, 0x37, 0x75, 0x70, 0, 0]⟩⟩
    typeDefinitions := #[
      { nestedRow none with nameIndex := 6, namespaceIndex := 0, fieldStart := 0, fieldCount := 1 },
      { nestedRow (some 2) with nameIndex := 10, genericContainerIndex := some 0 }]
    registration :=
      { boxed.registration with
        genericClasses := #[0x1000]
        types := #[⟨0, .genericInst, 0, false, false, .instantiation 0x1000⟩,
          ⟨0, .i4, 0, false, false, .none⟩,
          ⟨0, .classType, 0, false, false, .definition 0⟩] } }

namespace CellState

/-- The instantiation in `boxedInside` has a path of four identifiers. -/
theorem named_along_boxed :
    let config := { Config.minimal with materialize := true }
    let arena := (Resolver.empty.run .boxedInside config).arena
    ∃ c chain names, arena.class? ⟨2⟩ = some c ∧ c.isInstantiation = true ∧
      c.qualifiedName = "_::_2b::_7up::_" ∧ arena.NamedAlong .boxedInside c chain names := by
  intro config arena
  have h_arena : arena = (Resolver.completeRange .boxedInside 4 0 3
      (Resolver.empty.start .boxedInside config)).arena :=
    congrArg Resolver.arena (Resolver.run_of_one_round (by decide +kernel) (by decide +kernel))
  have h_shown : (arena.class? ⟨2⟩).map (fun c => (c.isInstantiation, c.qualifiedName)) =
      some (true, "_::_2b::_7up::_") := by
    rw [h_arena]
    decide +kernel
  obtain ⟨c, h_c, h_shown⟩ := Option.map_eq_some_iff.mp h_shown
  obtain ⟨h_inst, h_name⟩ := Prod.mk.inj h_shown
  have h_reachable : Resolver.Reachable .boxedInside config _ := .serve .run .empty trivial
  obtain ⟨chain, names, h_along⟩ := (named_along .boxedInside config).1 _ h_reachable ⟨2⟩ c h_c
  exact ⟨c, chain, names, h_c, h_inst, h_name, h_along⟩

end CellState

end GlobalMetadata
