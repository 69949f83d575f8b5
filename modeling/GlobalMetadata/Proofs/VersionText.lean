import GlobalMetadata.Version.Checked
import Mathlib.Data.List.DropRight
import Mathlib.Data.List.TakeDrop
import Mathlib.Data.List.TakeWhile

/-!
# The texts of versions

A version is written as two decimal numbers with a dot between them, where a minor half of zero is
left out. More is read than is ever written: blanks around the text, plus signs, leading zeros and a
minor half of zero.

* `Numeral.Spells`, `Blank.Trims` and `Version.Spelled` say what is read, without any scanning.
* `Numeral.bounded?_eq_some_iff`, `Blank.strip_eq_iff` and `Version.parse?_eq_some_iff` say that the
  scanners accept this and nothing else.
* A written version is a text that is read (`Version.spelled_text`), so that reading gives the
  version back and different versions have different texts.
-/

namespace GlobalMetadata

/-! ### Numerals -/

namespace Numeral

/-- A numeral: an optional plus sign, and one or more decimal digits with this value. -/
def Spells (text : List Char) (n : Nat) : Prop :=
  ∃ digits, (text = digits ∨ text = '+' :: digits) ∧ digits ≠ [] ∧
    (∀ c ∈ digits, c.isDigit = true) ∧ Nat.ofDigitChars 10 digits 0 = n

variable {text digits : List Char} {n bound : Nat}

/-- A sign is taken off, and digits have none. -/
theorem unsign_of_digits (h_text : text = digits ∨ text = '+' :: digits)
    (h_digits : ∀ c ∈ digits, c.isDigit = true) : unsign text = digits := by
  rcases h_text with rfl | rfl
  · cases text with
    | nil => rfl
    | cons c rest =>
      have h_c := h_digits c List.mem_cons_self
      unfold unsign
      split
      next h_sign =>
        cases h_sign
        exact absurd h_c (by decide)
      next => rfl
  · rfl

theorem eq_or_eq_unsign (text : List Char) : text = unsign text ∨ text = '+' :: unsign text := by
  unfold unsign
  split
  · exact .inr rfl
  · exact .inl rfl

/-- **Bounded numerals** are the numerals with a value below the bound. -/
theorem bounded?_eq_some_iff : bounded? bound text = some n ↔ Spells text n ∧ n < bound := by
  unfold bounded?
  dsimp only
  constructor
  · intro h
    split at h
    next h_numeral =>
      cases h
      obtain ⟨h_some, h_digits, h_bound⟩ := h_numeral
      exact ⟨⟨unsign text, eq_or_eq_unsign text, h_some, List.all_eq_true.mp h_digits, rfl⟩,
        h_bound⟩
    next => cases h
  · rintro ⟨⟨digits, h_text, h_some, h_digits, rfl⟩, h_bound⟩
    rw [unsign_of_digits h_text h_digits]
    exact if_pos ⟨h_some, List.all_eq_true.mpr h_digits, h_bound⟩

/-- A number is written as a numeral. -/
theorem spells_repr (n : Nat) : Spells n.repr.toList n := by
  rw [Nat.toList_repr]
  exact ⟨_, .inl rfl, Nat.toDigits_ne_nil,
    fun c h_c => Nat.isDigit_of_mem_toDigits (by decide) (by decide) h_c,
    Nat.ofDigitChars_toDigits (by decide) (by decide)⟩

theorem Spells.dot_not_mem (h : Spells text n) : '.' ∉ text := by
  obtain ⟨digits, h_text, -, h_digits, -⟩ := h
  have h_dot : '.' ∉ digits := fun h_mem => absurd (h_digits _ h_mem) (by decide)
  rcases h_text with rfl | rfl
  · exact h_dot
  · exact fun h_mem => h_dot ((List.mem_cons.mp h_mem).resolve_left (by decide))

end Numeral

/-! ### Blanks -/

namespace Blank

/-- A text without the blanks around it. -/
def Trims (text core : List Char) : Prop :=
  ∃ before after, text = before ++ core ++ after ∧ (∀ c ∈ before, isBlank c = true) ∧
    (∀ c ∈ after, isBlank c = true) ∧ (∀ c ∈ core.head?, isBlank c = false) ∧
    ∀ c ∈ core.getLast?, isBlank c = false

variable {text core : List Char}

theorem dropWhile_of_head (h : ∀ c ∈ core.head?, isBlank c = false) :
    core.dropWhile isBlank = core := by
  cases core with
  | nil => rfl
  | cons c rest => exact List.dropWhile_cons_of_neg (Bool.not_eq_true _ ▸ h c rfl)

theorem strip_of_trims (h : Trims text core) : strip text = core := by
  obtain ⟨before, after, rfl, h_before, h_after, h_head, h_last⟩ := h
  have h_back : (after.reverse ++ core.reverse).dropWhile isBlank = core.reverse := by
    rw [List.dropWhile_append_of_pos fun c h_c => h_after c (List.mem_reverse.mp h_c)]
    exact dropWhile_of_head (by rwa [List.head?_reverse])
  unfold strip
  rw [List.append_assoc, List.dropWhile_append_of_pos h_before]
  cases core with
  | nil =>
    -- there is nothing but blanks
    rw [List.nil_append, List.dropWhile_eq_nil_iff.mpr h_after]
    rfl
  | cons c rest =>
    have h_front : (c :: rest ++ after).dropWhile isBlank = c :: rest ++ after :=
      dropWhile_of_head h_head
    rw [h_front, List.reverse_append, h_back, List.reverse_reverse]

/-- What is left begins with no blank. -/
theorem head?_dropWhile (text : List Char) :
    ∀ c ∈ (text.dropWhile isBlank).head?, isBlank c = false := by
  intro c h_c
  have h_head := List.head?_dropWhile_not isBlank text
  rwa [h_c] at h_head

theorem trims_strip (text : List Char) : Trims text (strip text) := by
  let rest := text.dropWhile isBlank
  have h_strip : strip text = rest.rdropWhile isBlank := rfl
  have h_rest : rest.rdropWhile isBlank ++ rest.rtakeWhile isBlank = rest :=
    List.rdropWhile_append_rtakeWhile ..
  refine ⟨text.takeWhile isBlank, rest.rtakeWhile isBlank, ?_, fun _ => List.mem_takeWhile_imp,
    fun _ => List.mem_rtakeWhile_imp, fun c h_c => ?_, fun c h_c => ?_⟩
  · rw [h_strip, List.append_assoc, h_rest, List.takeWhile_append_dropWhile]
  · -- the first character is that of the text without the blanks in front
    refine head?_dropWhile text c ?_
    show c ∈ rest.head?
    rw [← h_rest, List.head?_append, ← h_strip, h_c]
    rfl
  · rw [strip, List.getLast?_reverse] at h_c
    exact head?_dropWhile _ c h_c

/-- **Stripping** takes the blanks off, and nothing else. -/
theorem strip_eq_iff : strip text = core ↔ Trims text core :=
  ⟨fun h => h ▸ trims_strip text, strip_of_trims⟩

/-- A text without any blanks stays as it is. -/
theorem trims_self (h : ∀ c ∈ text, isBlank c = false) : Trims text text :=
  ⟨[], [], by simp, by simp, by simp, fun c h_c => h c (List.mem_of_mem_head? h_c),
    fun c h_c => h c (List.mem_of_mem_getLast? h_c)⟩

end Blank

/-! ### Versions -/

namespace Version

/-- The text of a version without blanks around it: a numeral for the major half, which may be
followed by a dot and a numeral for the minor half. The text is split at its first dot. -/
inductive Spelled : List Char → Version → Prop
  /-- The minor half is left out. -/
  | major {text : List Char} {v : Version} (undotted : '.' ∉ text)
      (h_major : Numeral.Spells text v.major.toNat) (h_minor : v.minor = 0) : Spelled text v
  | both {major minor : List Char} {v : Version} (undotted : '.' ∉ major)
      (h_major : Numeral.Spells major v.major.toNat)
      (h_minor : Numeral.Spells minor v.minor.toNat) : Spelled (major ++ '.' :: minor) v

variable {text major minor : List Char} {v : Version}

theorem halves_of_not_mem (h : '.' ∉ text) : halves text = (text, ['0']) := by
  have h_all : ∀ c ∈ text, decide (c ≠ '.') = true :=
    fun _ h_c => decide_eq_true (ne_of_mem_of_not_mem h_c h)
  rw [halves, List.span_eq_takeWhile_dropWhile, List.takeWhile_eq_self_iff.mpr h_all,
    List.dropWhile_eq_nil_iff.mpr h_all]

theorem halves_of_dot (h : '.' ∉ major) : halves (major ++ '.' :: minor) = (major, minor) := by
  have h_all : ∀ c ∈ major, decide (c ≠ '.') = true :=
    fun _ h_c => decide_eq_true (ne_of_mem_of_not_mem h_c h)
  rw [halves, List.span_eq_takeWhile_dropWhile, List.takeWhile_append_of_pos h_all,
    List.dropWhile_append_of_pos h_all]
  simp

/-- One half of a version is a numeral of at most 16 bits. -/
theorem parseHalf?_eq_some_iff {half : UInt16} :
    parseHalf? text = some half ↔ Numeral.Spells text half.toNat := by
  unfold parseHalf?
  rw [Option.map_eq_some_iff]
  constructor
  · rintro ⟨n, h_n, rfl⟩
    obtain ⟨h_spells, h_bound⟩ := Numeral.bounded?_eq_some_iff.mp h_n
    rwa [UInt16.toNat_ofNat', Nat.mod_eq_of_lt h_bound]
  · intro h
    exact ⟨_, Numeral.bounded?_eq_some_iff.mpr ⟨h, half.toNat_lt⟩, UInt16.ofNat_toNat⟩

/-- The version that two texts spell as its halves. -/
def ofHalves? (major minor : List Char) : Option Version :=
  match parseHalf? major, parseHalf? minor with
  | some major, some minor => some ⟨major, minor⟩
  | _, _ => none

theorem ofHalves?_eq_some_iff : ofHalves? major minor = some v ↔
    Numeral.Spells major v.major.toNat ∧ Numeral.Spells minor v.minor.toNat := by
  rw [← parseHalf?_eq_some_iff, ← parseHalf?_eq_some_iff]
  unfold ofHalves?
  cases v
  cases parseHalf? major <;> cases parseHalf? minor <;> simp

theorem spells_zero_iff {half : UInt16} : Numeral.Spells ['0'] half.toNat ↔ half = 0 := by
  have h_zero : parseHalf? ['0'] = some 0 := by decide
  rw [← parseHalf?_eq_some_iff, h_zero, Option.some.injEq, eq_comm]

/-- The halves of a text are numerals exactly if the text spells a version. -/
theorem ofHalves?_halves_eq_some_iff :
    ofHalves? (halves text).1 (halves text).2 = some v ↔ Spelled text v := by
  constructor
  · intro h
    by_cases h_dot : '.' ∈ text
    · -- the text is split in front of its first dot
      obtain ⟨major, minor, rfl, h_undotted⟩ := List.eq_append_cons_of_mem h_dot
      rw [halves_of_dot h_undotted, ofHalves?_eq_some_iff] at h
      exact .both h_undotted h.1 h.2
    · rw [halves_of_not_mem h_dot, ofHalves?_eq_some_iff] at h
      exact .major h_dot h.1 (spells_zero_iff.mp h.2)
  · intro h
    cases h with
    | major h_undotted h_major h_minor =>
      rw [halves_of_not_mem h_undotted, ofHalves?_eq_some_iff]
      exact ⟨h_major, spells_zero_iff.mpr h_minor⟩
    | both h_undotted h_major h_minor =>
      rw [halves_of_dot h_undotted, ofHalves?_eq_some_iff]
      exact ⟨h_major, h_minor⟩

/-- **The grammar of versions.** A text is read exactly if it spells the version, apart from the
blanks around it. -/
theorem parse?_eq_some_iff {s : String} :
    parse? s = some v ↔ ∃ core, Blank.Trims s.toList core ∧ Spelled core v := by
  have h_parse : parse? s = ofHalves? (halves (Blank.strip s.toList)).1
      (halves (Blank.strip s.toList)).2 := rfl
  rw [h_parse, ofHalves?_halves_eq_some_iff]
  simp only [← Blank.strip_eq_iff, exists_eq_left']

/-- A written version spells itself. -/
theorem spelled_text (v : Version) : Spelled v.text.toList v := by
  unfold Version.text
  have h_major := Numeral.spells_repr v.major.toNat
  split
  next h_minor => exact .major h_major.dot_not_mem h_major h_minor
  next =>
    rw [String.toList_append, String.toList_append, List.append_assoc]
    exact .both h_major.dot_not_mem h_major (Numeral.spells_repr _)

theorem isBlank_of_isDigit {c : Char} (h : c.isDigit = true) : Blank.isBlank c = false := by
  have h_low : 48 ≤ c.toNat := (Char.isDigit_iff_toNat.mp h).1
  have h_high : c.toNat ≤ 57 := (Char.isDigit_iff_toNat.mp h).2
  simp only [Blank.isBlank, Bool.or_eq_false_iff, Bool.and_eq_false_iff, decide_eq_false_iff_not,
    beq_eq_false_iff_ne]
  omega

/-- No blank is written. -/
theorem trims_text (v : Version) : Blank.Trims v.text.toList v.text.toList := by
  have h_repr (n : Nat) : ∀ c ∈ n.repr.toList, Blank.isBlank c = false := by
    intro c h_c
    rw [Nat.toList_repr] at h_c
    exact isBlank_of_isDigit (Nat.isDigit_of_mem_toDigits (by decide) (by decide) h_c)
  refine Blank.trims_self fun c h_c => ?_
  unfold Version.text at h_c
  split at h_c
  · exact h_repr _ c h_c
  · rw [String.toList_append, String.toList_append, List.mem_append, List.mem_append] at h_c
    rcases h_c with (h_c | h_c) | h_c
    · exact h_repr _ c h_c
    · rw [List.mem_singleton.mp h_c]
      decide
    · exact h_repr _ c h_c

theorem parse_eq_ok_iff {s : String} : parse s = .ok v ↔ parse? s = some v := by
  unfold parse
  cases parse? s <;> simp

theorem parse_eq_error_iff {s : String} :
    parse s = .error (.malformed (.versionText s)) ↔ parse? s = none := by
  unfold parse
  cases parse? s <;> simp

/-- **Reading versions.** A written version is read back, so that different versions are written
differently. A text is read exactly if, apart from the blanks around it, it is a numeral or two
numerals with a dot between them; their values are the halves of the version, and any other text is
refused. -/
theorem parse_text_iff :
    (∀ v : Version, parse v.text = .ok v) ∧ Function.Injective Version.text ∧
    ∀ s, (∀ v, parse s = .ok v ↔ ∃ core, Blank.Trims s.toList core ∧ Spelled core v) ∧
      (parse s = .error (.malformed (.versionText s)) ↔
        ¬ ∃ v core, Blank.Trims s.toList core ∧ Spelled core v) := by
  have h_back (v : Version) : parse? v.text = some v :=
    parse?_eq_some_iff.mpr ⟨_, trims_text v, spelled_text v⟩
  refine ⟨fun v => parse_eq_ok_iff.mpr (h_back v), fun v w h_same => ?_, fun s => ⟨fun v => ?_, ?_⟩⟩
  · have h_v := h_back v
    rw [h_same, h_back w] at h_v
    exact (Option.some.inj h_v).symm
  · rw [parse_eq_ok_iff, parse?_eq_some_iff]
  · simp only [parse_eq_error_iff, ← parse?_eq_some_iff, Option.eq_none_iff_forall_ne_some,
      not_exists, ne_eq]

example : parse " +024.5\n" = .ok ⟨24, 5⟩ := by decide

end Version

end GlobalMetadata
