import GlobalMetadata.Proofs.Soundness

/-!
# The display of a term

What source code writes for a type depends on nothing but the term that the type stands for and the
names in the tables: `Metadata.display` writes a term without any arena. In a sound arena an id is
displayed as its term is (`Arena.Sound.display_eq`), whatever the ids and the order of creation are.

The display of an arena follows references up to a bound. The clock of a sound arena shows that the
bound is never reached, since every reference leads back in time.
-/

namespace GlobalMetadata

/-! ### Writing terms -/

/-- The display of a type definition after the display of what is around it. -/
def Frame.display (frame : Frame) (around : String) (args : List String) : String :=
  let list := if args.isEmpty then "" else "<" ++ ", ".intercalate args ++ ">"
  around ++ Name.stripArity frame.name ++ list

/-- The names of the own generic parameters. -/
def Frame.parameterNames (frame : Frame) : List String :=
  frame.parameters.map Prod.snd

/-- The display of the innermost type of a chain with given arguments. The types around it are
written with their own parameters. -/
def Lineage.display : Lineage → List String → String
  | .top _ frame, args => frame.display "" args
  | .nested frame outer, args =>
    frame.display (outer.display outer.frame.parameterNames ++ ".") args

namespace Metadata

mutual

/-- **Display.** How source code writes a term. -/
def display (m : Metadata) : TypeTerm → String
  | .void => "void"
  | .primitive kind => kind.displayName
  | .class definition classArgs methodArgs =>
    match m.lineage definition with
    | .ok lineage =>
      lineage.display
        (if (KeyTerm.mk definition classArgs methodArgs).isInstantiation then displays m classArgs
        else lineage.frame.parameterNames)
    | .error _ => Arena.unknownDisplay
  | .array element rank =>
    display m element ++ "[" ++ String.ofList (List.replicate (rank - 1) ',') ++ "]"
  | .pointer element => display m element ++ "*"
  | .byref element => "ref " ++ display m element
  | .parameter _ _ name => name

/-- How source code writes several terms. -/
def displays (m : Metadata) : List TypeTerm → List String
  | [] => []
  | t :: ts => display m t :: displays m ts

end

theorem displays_eq_map (m : Metadata) (ts : List TypeTerm) : m.displays ts = ts.map m.display := by
  induction ts with
  | nil => rfl
  | cons t ts ih => rw [displays, ih, List.map_cons]

theorem displays_openArgs (m : Metadata) (frame : Frame) :
    m.displays frame.openArgs = frame.parameterNames := by
  rw [displays_eq_map, Frame.openArgs, Frame.parameterNames, List.map_map]
  exact List.map_congr_left fun _ _ => by rw [Function.comp_apply, display]

theorem display_type {m : Metadata} {k : KeyTerm} {lineage : Lineage}
    (h : m.Traces k.definition lineage) :
    m.display k.type = lineage.display
      (if k.isInstantiation then m.displays k.classArgs else lineage.frame.parameterNames) := by
  rw [KeyTerm.type, display, lineage_eq_ok_iff.mpr h]

/-- The display of a class with its namespace. -/
def fullDisplay (m : Metadata) (k : KeyTerm) : String :=
  match m.lineage k.definition with
  | .ok lineage =>
    if lineage.namespaceName = "" then m.display k.type
    else lineage.namespaceName ++ "." ++ m.display k.type
  | .error _ => Arena.unknownDisplay

end Metadata

/-! ### Displays of a sound arena -/

namespace Arena

section Display

variable {m : Metadata} {arena : Arena} {time : Node → Nat}

/-- What a class is displayed with as arguments. -/
theorem Shows.displays_genericArgs {lineage : Lineage} {k : KeyTerm} {c : ResolvedClass}
    (h : arena.Shows m lineage k c) {display : TypeId → Option String}
    (h_display : ∀ t id, id ∈ c.genericArgs → arena.Unfolds t id →
      display id = some (m.display t)) :
    c.genericArgs.mapM display =
      some
        (if k.isInstantiation then m.displays k.classArgs else lineage.frame.parameterNames) := by
  rw [mapM_of_unfoldsAll h.genericArgs m.display h_display, ← Metadata.displays_eq_map]
  split
  · rfl
  · rw [m.displays_openArgs]

/-- Types that were created early enough are displayed as the terms that they stand for. -/
def DisplaysTypes (m : Metadata) (arena : Arena) (time : Node → Nat) (fuel : Nat) : Prop :=
  ∀ t id, arena.Unfolds t id → time (.type id) < fuel →
    arena.displayWithin fuel id = some (m.display t)

/-- Classes that were created early enough are displayed as their keys. -/
def DisplaysClasses (m : Metadata) (arena : Arena) (time : Node → Nat) (fuel : Nat) : Prop :=
  ∀ lineage k id c, m.Traces k.definition lineage → arena.class? id = some c →
    arena.Shows m lineage k c → time (.class id) < fuel →
    arena.classDisplayWithin fuel id = some (m.display k.type)

/-- Displaying a type comes down to what it refers to, which is earlier. -/
theorem DisplaysTypes.succ {fuel : Nat} (h_types : DisplaysTypes m arena time fuel)
    (h : arena.Sound m) (h_time : arena.Timed time)
    (h_classes : DisplaysClasses m arena time fuel) :
    DisplaysTypes m arena time (fuel + 1) := by
  intro t id h_t h_lt
  have h_ref {type : ResolvedType} (h_id : arena.type? id = some type) {ref : Node}
      (h_mem : ref ∈ type.refs) : time ref < fuel :=
    Nat.lt_of_lt_of_le (h_time.earlier _ _ (refs?_type h_id) _ h_mem).2 (Nat.le_of_lt_succ h_lt)
  cases t with
  | void | primitive kind | parameter position ofMethod name =>
    rw [Unfolds] at h_t
    rw [displayWithin, h_t, Metadata.display]
  | «class» definition classArgs methodArgs =>
    obtain ⟨owner, c, h_id, h_c, h_key⟩ := h_t
    obtain ⟨lineage, h_traces, h_shows⟩ :=
      h.shows_of_key (k := ⟨definition, classArgs, methodArgs⟩) h_c h_key
    rw [displayWithin, h_id]
    exact h_classes _ _ _ _ h_traces h_c h_shows (h_ref h_id List.mem_cons_self)
  | array element | pointer element | byref element =>
    obtain ⟨part, h_id, h_part⟩ := h_t
    rw [displayWithin, h_id, Metadata.display]
    simp only [h_types _ _ h_part (h_ref h_id List.mem_cons_self)]
    rfl

/-- Displaying a class comes down to its arguments and to the class around it. -/
theorem DisplaysClasses.succ {fuel : Nat} (h_classes : DisplaysClasses m arena time fuel)
    (h : arena.Sound m) (h_time : arena.Timed time) (h_types : DisplaysTypes m arena time fuel) :
    DisplaysClasses m arena time (fuel + 1) := by
  intro lineage k id c h_traces h_c h_shows h_lt
  have h_ref {ref : Node} (h_mem : ref ∈ c.refs) : time ref < fuel :=
    Nat.lt_of_lt_of_le (h_time.earlier _ _ (refs?_class h_c) _ h_mem).2 (Nat.le_of_lt_succ h_lt)
  -- the arguments are displayed first
  have h_args := h_shows.displays_genericArgs fun t arg h_arg h_t =>
    h_types t arg h_t (h_ref (List.mem_append_left _
      (List.mem_map_of_mem (List.mem_append_right _ h_arg))))
  have h_declaring := h_shows.declaring
  rw [classDisplayWithin, h_c, Metadata.display_type h_traces]
  cases lineage with
  | top namespaceName frame =>
    generalize h_none : c.declaring = declaring at h_declaring
    cases h_declaring
    simp only [h_none, h_args, h_shows.name]
    rfl
  | nested frame outer =>
    generalize h_some : c.declaring = declaring at h_declaring
    cases h_declaring with
    | nested found =>
      -- the class around is that of a definition, with its own parameters as arguments
      obtain ⟨c', outer', h_c', -, h_outer', h_shows'⟩ := h.shows_of_definition found
      obtain rfl : outer' = outer := h_outer'.unique (h_traces.outer rfl)
      have h_display := h_classes _ _ _ _ h_outer' h_c' h_shows'
        (h_ref (List.mem_append_right _ (by rw [h_some]; exact List.mem_cons_self)))
      rw [Metadata.display_type h_outer'] at h_display
      simp only [h_some, h_args, h_shows.name, h_display]
      rfl

/-- Both bounded displays agree with that of terms, as long as the bound is later than the clock. -/
theorem Sound.displayWithin_eq (h : arena.Sound m) (h_time : arena.Timed time) (fuel : Nat) :
    DisplaysTypes m arena time fuel ∧ DisplaysClasses m arena time fuel := by
  induction fuel with
  | zero =>
    constructor
    · intro t id _ h_lt
      exact absurd h_lt (Nat.not_lt_zero _)
    · intro lineage k id c _ _ _ h_lt
      exact absurd h_lt (Nat.not_lt_zero _)
  | succ fuel ih =>
    obtain ⟨h_types, h_classes⟩ := ih
    exact ⟨h_types.succ h h_time h_classes, h_classes.succ h h_time h_types⟩

/-- **Display.** An id is displayed as the term that it stands for. -/
theorem Sound.display_eq (h : arena.Sound m) {t : TypeTerm} {id : TypeId}
    (h_t : arena.Unfolds t id) : arena.display id = m.display t := by
  obtain ⟨time, h_time⟩ := h.timed
  have h_lt : time (.type id) < arena.spellingBound :=
    Nat.lt_succ_of_lt (h_time.bounded _ (has_type_iff.mpr h_t.hasType))
  rw [display, (h.displayWithin_eq h_time _).1 t id h_t h_lt]
  rfl

/-- A class is displayed as the key that it stands for. -/
theorem Sound.classFullDisplay_eq (h : arena.Sound m) {k : KeyTerm} {id : ClassId}
    {c : ResolvedClass} (h_c : arena.class? id = some c) (h_k : arena.UnfoldsKey k c.key) :
    arena.classFullDisplay id = m.fullDisplay k := by
  obtain ⟨lineage, h_traces, h_shows⟩ := h.shows_of_key h_c h_k
  obtain ⟨time, h_time⟩ := h.timed
  have h_lt : time (.class id) < arena.spellingBound :=
    Nat.lt_succ_of_lt (h_time.bounded _ (has_class_iff.mpr (hasClass_iff.mpr ⟨c, h_c⟩)))
  have h_display : arena.classDisplay id = m.display k.type := by
    rw [classDisplay, (h.displayWithin_eq h_time _).2 lineage k id c h_traces h_c h_shows h_lt]
    rfl
  rw [classFullDisplay, h_c, Metadata.fullDisplay, Metadata.lineage_eq_ok_iff.mpr h_traces]
  simp only [h_display, h_shows.namespaceName]

end Display

end Arena
end GlobalMetadata
