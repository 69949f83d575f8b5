import GlobalMetadata.Error
import Mathlib.Data.List.Forall2

/-!
# Computations that can fail

Everything that reads stored data ends with a value or with an error. This module has what is needed
to take such computations apart.

* A sequence of steps that succeeds does so through the values in between
  (`except_bind_eq_ok_iff`), and a round of steps through one value for each
  (`forall₂_of_mapM_eq_ok`, `exists_of_mapM_eq_ok`, `exists_of_mem_of_mapM_eq_ok`).
* `Raises P x` says that whatever error `x` ends with satisfies `P`. A sequence of steps raises what
  its steps raise, where a later step may use what is known of the value that it starts from
  (`Raises.bind_of_ok`). If that is one error only, a round of steps fails with it as soon as one of
  them does (`mapM_eq_error`).
-/

namespace GlobalMetadata

variable {α β γ : Type}

/-! ### Success -/

/-- A sequence of two computations succeeds through an intermediate value. -/
theorem except_bind_eq_ok_iff {x : Except Error α} {f : α → Except Error β} {b : β} :
    (x >>= f) = .ok b ↔ ∃ a, x = .ok a ∧ f a = .ok b := by
  constructor
  · intro h
    cases x with
    | ok a => exact ⟨a, rfl, h⟩
    | error e => cases h
  · rintro ⟨a, rfl, h⟩
    exact h

theorem except_map_eq_ok_iff {x : Except Error α} {f : α → β} {b : β} :
    f <$> x = .ok b ↔ ∃ a, x = .ok a ∧ f a = b := by
  cases x with
  | error e => exact iff_of_false (fun h => by cases h) fun ⟨_, h, _⟩ => by cases h
  | ok a =>
    constructor
    · intro h
      exact ⟨a, rfl, Except.ok.inj h⟩
    · rintro ⟨_, h, rfl⟩
      cases h
      rfl

theorem exists_bind_eq_ok {x : Except Error α} {f : α → Except Error β} (h : ∃ a, x = .ok a)
    (h_f : ∀ a, ∃ b, f a = .ok b) : ∃ b, (x >>= f) = .ok b := by
  obtain ⟨a, rfl⟩ := h
  exact h_f a

theorem toOption_eq_some_iff {x : Except Error α} {a : α} : x.toOption = some a ↔ x = .ok a := by
  cases x with
  | error e => exact iff_of_false (fun h => by cases h) (fun h => by cases h)
  | ok a' => exact ⟨fun h => congrArg Except.ok (Option.some.inj h), fun h => by cases h; rfl⟩

section Rounds

variable {f : α → Except Error β} {as : List α} {bs : List β}

/-- What is read for every entry is read for each. -/
theorem exists_of_mapM_eq_ok (h : as.mapM f = .ok bs) : ∀ a ∈ as, ∃ b, f a = .ok b := by
  induction as generalizing bs with
  | nil => exact fun a h_a => absurd h_a List.not_mem_nil
  | cons a as ih =>
    rw [List.mapM_cons] at h
    -- the first entry is read, and then the others are
    obtain ⟨b, h_b, h⟩ := except_bind_eq_ok_iff.mp h
    obtain ⟨bs', h_bs, -⟩ := except_bind_eq_ok_iff.mp h
    intro a' h_a'
    rcases List.mem_cons.mp h_a' with rfl | h_a'
    · exact ⟨b, h_b⟩
    · exact ih h_bs a' h_a'

/-- Every value of a round is read for some entry. -/
theorem exists_of_mem_of_mapM_eq_ok (h : as.mapM f = .ok bs) :
    ∀ b ∈ bs, ∃ a ∈ as, f a = .ok b := by
  induction as generalizing bs with
  | nil =>
    cases h
    exact fun b h_b => absurd h_b List.not_mem_nil
  | cons a as ih =>
    rw [List.mapM_cons] at h
    obtain ⟨first, h_first, h⟩ := except_bind_eq_ok_iff.mp h
    obtain ⟨rest, h_rest, h⟩ := except_bind_eq_ok_iff.mp h
    cases h
    intro b h_b
    rcases List.mem_cons.mp h_b with rfl | h_b
    · exact ⟨a, List.mem_cons_self, h_first⟩
    · obtain ⟨a', h_a', h_b⟩ := ih h_rest b h_b
      exact ⟨a', List.mem_cons_of_mem a h_a', h_b⟩

/-- Each entry of a list has its value. -/
theorem forall₂_of_mapM_eq_ok (h : as.mapM f = .ok bs) :
    List.Forall₂ (fun a b => f a = .ok b) as bs := by
  induction as generalizing bs with
  | nil =>
    cases h
    exact .nil
  | cons a as ih =>
    rw [List.mapM_cons] at h
    obtain ⟨first, h_first, h⟩ := except_bind_eq_ok_iff.mp h
    obtain ⟨rest, h_rest, h⟩ := except_bind_eq_ok_iff.mp h
    cases h
    exact .cons h_first (ih h_rest)

/-- A round of steps that cannot fail. -/
theorem mapM_eq_ok (h : ∀ a ∈ as, ∃ b, f a = .ok b) :
    as.mapM f = .ok (as.filterMap fun a => (f a).toOption) := by
  induction as with
  | nil => rfl
  | cons a as ih =>
    obtain ⟨b, h_b⟩ := h a List.mem_cons_self
    have h_some : (f a).toOption = some b := by rw [h_b]; rfl
    rw [List.mapM_cons, h_b, ih fun a' h_a' => h a' (List.mem_cons_of_mem a h_a'),
      List.filterMap_cons_some (f := fun a => (f a).toOption) h_some]
    rfl

theorem mapM_eq_ok_map {g : α → β} (h : ∀ a ∈ as, f a = .ok (g a)) :
    as.mapM f = .ok (as.map g) := by
  induction as with
  | nil => rfl
  | cons a as ih =>
    rw [List.mapM_cons, h a List.mem_cons_self,
      ih fun a' h_a' => h a' (List.mem_cons_of_mem a h_a')]
    rfl

/-- Converting what a round gives is a part of the round, if all of the round comes out. -/
theorem mapM_bind_eq_ok {g : β → Except Error γ} {cs : List γ}
    (h : as.mapM f = .ok bs) (h' : bs.mapM g = .ok cs) :
    (as.mapM fun a => f a >>= g) = .ok cs := by
  induction as generalizing bs cs with
  | nil =>
    cases h
    exact h'
  | cons a as ih =>
    rw [List.mapM_cons] at h
    obtain ⟨b, h_b, h⟩ := except_bind_eq_ok_iff.mp h
    obtain ⟨bs', h_bs, h⟩ := except_bind_eq_ok_iff.mp h
    cases h
    rw [List.mapM_cons] at h'
    obtain ⟨c, h_c, h'⟩ := except_bind_eq_ok_iff.mp h'
    obtain ⟨cs', h_cs, h'⟩ := except_bind_eq_ok_iff.mp h'
    cases h'
    rw [List.mapM_cons, h_b]
    show (g b >>= fun c => (as.mapM fun a => f a >>= g) >>= fun cs => pure (c :: cs)) = _
    rw [h_c, ih h_bs h_cs]
    rfl

/-- Two rounds of steps that cannot fail come to one round of both. -/
theorem exists_mapM_mapM_eq_ok {g : β → Except Error γ}
    (h : ∀ a ∈ as, ∃ b c, f a = .ok b ∧ g b = .ok c) :
    ∃ bs, as.mapM f = .ok bs ∧ bs.mapM g = .ok (as.filterMap fun a => (f a >>= g).toOption) := by
  refine ⟨_, mapM_eq_ok fun a h_a => ?_, ?_⟩
  · obtain ⟨b, -, h_b, -⟩ := h a h_a
    exact ⟨b, h_b⟩
  · rw [mapM_eq_ok fun b h_b => ?_, List.filterMap_filterMap]
    · congr 2
      funext a
      cases f a <;> rfl
    · obtain ⟨a, h_a, h_some⟩ := List.mem_filterMap.mp h_b
      obtain ⟨b', c, h_b', h_c⟩ := h a h_a
      rw [h_b'] at h_some
      cases h_some
      exact ⟨c, h_c⟩

end Rounds

/-! ### Failure -/

/-- Whatever error a computation ends with satisfies `P`. -/
def Raises (P : Error → Prop) (x : Except Error α) : Prop :=
  ∀ e, x = .error e → P e

namespace Raises

variable {P Q : Error → Prop}

theorem ok (a : α) : Raises P (.ok a : Except Error α) := by
  intro e h
  cases h

theorem pure (a : α) : Raises P (Pure.pure a : Except Error α) :=
  ok a

theorem of_exists_ok {x : Except Error α} (h : ∃ a, x = .ok a) : Raises P x := by
  obtain ⟨a, rfl⟩ := h
  exact ok a

theorem error {e : Error} (h : P e) : Raises P (.error e : Except Error α) := by
  intro e' h_e
  cases h_e
  exact h

theorem throw {e : Error} (h : P e) : Raises P (MonadExcept.throw e : Except Error α) :=
  error h

theorem imp {x : Except Error α} (h : Raises P x) (h_imp : ∀ e, P e → Q e) : Raises Q x :=
  fun e h_e => h_imp e (h e h_e)

/-- **Sequences.** A step raises its errors, and so does the next one, which starts from a value
that the first has given. -/
theorem bind_of_ok {x : Except Error α} {f : α → Except Error β} (h : Raises P x)
    (h_f : ∀ a, x = .ok a → Raises P (f a)) : Raises P (x >>= f) := by
  intro e h_e
  cases x with
  | ok a => exact h_f a rfl e h_e
  | error e' =>
    cases h_e
    exact h e rfl

theorem bind {x : Except Error α} {f : α → Except Error β} (h : Raises P x)
    (h_f : ∀ a, Raises P (f a)) : Raises P (x >>= f) :=
  h.bind_of_ok fun a _ => h_f a

theorem map {f : α → β} {x : Except Error α} (h : Raises P x) : Raises P (f <$> x) := by
  intro e h_e
  cases x with
  | ok a => cases h_e
  | error e' =>
    cases h_e
    exact h e rfl

theorem mapM {f : α → Except Error β} {as : List α} (h : ∀ a ∈ as, Raises P (f a)) :
    Raises P (as.mapM f) := by
  induction as with
  | nil => exact pure []
  | cons a as ih =>
    rw [List.mapM_cons]
    refine (h a List.mem_cons_self).bind fun b => ?_
    exact (ih fun a' h_a' => h a' (List.mem_cons_of_mem a h_a')).bind fun bs => pure (b :: bs)

end Raises

/-- A round in which nothing but one error can occur fails with it as soon as a step does. -/
theorem mapM_eq_error {f : α → Except Error β} {as : List α} {e : Error}
    (h_only : ∀ a ∈ as, Raises (· = e) (f a)) {a : α} (h_a : a ∈ as) (h : f a = .error e) :
    as.mapM f = .error e := by
  induction as with
  | nil => exact absurd h_a List.not_mem_nil
  | cons first as ih =>
    rw [List.mapM_cons]
    cases h_first : f first with
    | error e' =>
      rw [h_only first List.mem_cons_self e' h_first]
      rfl
    | ok b =>
      have h_rest : a ∈ as := by
        rcases List.mem_cons.mp h_a with rfl | h_rest
        · rw [h] at h_first
          cases h_first
        · exact h_rest
      show (as.mapM f >>= fun bs => pure (b :: bs)) = .error e
      rw [ih (fun a' h_a' => h_only a' (List.mem_cons_of_mem first h_a')) h_rest]
      rfl

end GlobalMetadata
