import GlobalMetadata.Proofs.Coherence
import GlobalMetadata.Proofs.Inversion

/-!
# Packed descriptors

The word of a type descriptor is cut into five fields. From its high end to its low end they are:

| bits  | 31     | 30           | 29 to 24  | 23 to 16 | 15 to 0    |
|-------|--------|--------------|-----------|----------|------------|
| field | pinned | by reference | modifiers | tag      | attributes |

The fields lie next to each other and leave no bit over, so that the word can be put together again
from the descriptor (`Descriptor.pack`). Only the tag has values without a meaning: the 36 kinds
have tags with gaps between them (`TypeKind.IsTag`). What becomes of the datapoint is a matter of
the kind alone. It is read in one of six forms, and the form says how many of its bits are kept
(`Payload.Form.bits`).

* `Descriptor.ofKind` cuts a word into its fields. Cutting and packing are inverse to each other
  (`Descriptor.pack_ofKind`, `Descriptor.Fits.ofKind_pack`).
* Unpacking a word with a known tag gives the one descriptor that keeps all of the word, and of the
  datapoint what its kind needs (`Descriptor.unpack_eq_ok_iff_keeps`).
* Whatever descriptor the registration tables lead to has been unpacked from 32 and 64 bits, and
  keeps them (`Registration.exists_keeps_of_read`).
-/

namespace GlobalMetadata

/-! ### Tags -/

namespace TypeKind

/-- The tags that stand for a kind. -/
def IsTag (tag : Nat) : Prop :=
  tag ≤ 0x16 ∨ tag ∈ [0x18, 0x19] ∨ (0x1B ≤ tag ∧ tag ≤ 0x21) ∨ tag ∈ [0x40, 0x41, 0x45, 0x55]

instance : DecidablePred IsTag :=
  fun _ => inferInstanceAs (Decidable (_ ∨ _))

variable {tag : Nat} {kind : TypeKind}

/-- A kind is found by its own tag, and by no other one. -/
theorem ofTag?_eq_some_iff : ofTag? tag = some kind ↔ kind.tag = tag := by
  constructor
  · intro h
    have h_same := List.find?_some h
    exact of_decide_eq_true h_same
  · rintro rfl
    exact ofTag?_tag kind

theorem isTag_tag (kind : TypeKind) : IsTag kind.tag := by
  cases kind <;> decide

theorem IsTag.lt (h : IsTag tag) : tag < 0x56 := by
  simp only [IsTag, List.mem_cons, List.not_mem_nil, or_false] at h
  omega

/-- Each of these tags has a kind. -/
theorem exists_tag_eq_iff : (∃ kind : TypeKind, kind.tag = tag) ↔ IsTag tag := by
  constructor
  · rintro ⟨kind, rfl⟩
    exact isTag_tag kind
  · intro h
    -- there is no rule for the gaps, so each tag is looked up
    have h_found : ∀ tag < 0x56, IsTag tag → (ofTag? tag).isSome = true := by decide
    obtain ⟨kind, h_kind⟩ := Option.isSome_iff_exists.mp (h_found tag h.lt h)
    exact ⟨kind, ofTag?_eq_some_iff.mp h_kind⟩

theorem ofTag?_eq_none_iff : ofTag? tag = none ↔ ¬ IsTag tag := by
  simp only [Option.eq_none_iff_forall_ne_some, ne_eq, ofTag?_eq_some_iff, ← exists_tag_eq_iff,
    not_exists]

end TypeKind

/-! ### Payloads -/

/-- The form of a payload, whatever its value. -/
inductive Payload.Form
  /-- Nothing is read. -/
  | none
  /-- The position of a type definition. -/
  | definition
  /-- The address of the descriptor of the element. -/
  | element
  /-- The address of an array shape. -/
  | array
  /-- The position of a generic parameter. -/
  | parameter
  /-- The address of an instantiation. -/
  | instantiation
  deriving DecidableEq, Repr

namespace Payload

/-- The form of a payload. -/
def form : Payload → Form
  | .none => .none
  | .definition _ => .definition
  | .element _ => .element
  | .array _ => .array
  | .parameter _ => .parameter
  | .instantiation _ => .instantiation

/-- The number that a payload holds, zero if it holds none. -/
def value : Payload → Nat
  | .none => 0
  | .definition n | .element n | .array n | .parameter n | .instantiation n => n

namespace Form

/-- The number of bits of a datapoint that are kept: all 64 of an address, the low 32 of a
position. -/
def bits : Form → Nat
  | .none => 0
  | .definition | .parameter => 32
  | .element | .array | .instantiation => 64

/-- A datapoint, read in a given form. -/
def read : Form → Nat → Payload
  | .none, _ => .none
  | .definition, n => .definition (asUInt32 n)
  | .element, n => .element n
  | .array, n => .array n
  | .parameter, n => .parameter (asUInt32 n)
  | .instantiation, n => .instantiation n

@[simp] theorem form_read (form : Form) (n : Nat) : (form.read n).form = form := by
  cases form <;> rfl

theorem value_read (form : Form) {n : Nat} (h : n < 2 ^ 64) :
    (form.read n).value = n % 2 ^ form.bits := by
  cases form with
  | none => exact (Nat.mod_one n).symm
  | definition | parameter => rfl
  | element | array | instantiation => exact (Nat.mod_eq_of_lt h).symm

end Form

/-- Form and value make up a payload. -/
theorem eq_of_form_of_value {a b : Payload} (h_form : a.form = b.form)
    (h_value : a.value = b.value) : a = b := by
  cases a <;> cases b <;> simp_all [form, value]

end Payload

/-- The form in which the datapoint of a kind is read. -/
def TypeKind.form : TypeKind → Payload.Form
  | .valueType | .classType | .enum => .definition
  | .ptr | .szArray | .byRef => .element
  | .array => .array
  | .var | .mVar => .parameter
  | .genericInst => .instantiation
  | _ => .none

theorem TypeKind.payload_eq_read (kind : TypeKind) (datapoint : Nat) :
    kind.payload datapoint = kind.form.read datapoint := by
  cases kind <;> rfl

namespace Descriptor

/-! ### Words -/

/-- The word with the fields of a descriptor. -/
def pack (d : Descriptor) : Nat :=
  d.attributes + 2 ^ 16 * d.kind.tag + 2 ^ 24 * d.modifiers + 2 ^ 30 * d.byref.toNat +
    2 ^ 31 * d.pinned.toNat

/-- What the fields of a word and a datapoint say, once the kind is known. -/
def ofKind (kind : TypeKind) (word datapoint : Nat) : Descriptor where
  attributes := word % 0x10000
  kind := kind
  modifiers := word / 0x1000000 % 0x40
  byref := word.testBit 30
  pinned := word.testBit 31
  payload := kind.payload datapoint

/-- The attributes and the number of modifiers have room in a word. -/
structure Fits (d : Descriptor) : Prop where
  attributes_lt : d.attributes < 2 ^ 16
  modifiers_lt : d.modifiers < 2 ^ 6

/-- **Nothing is lost.** The word is recovered from the descriptor. The form of the payload is that
of the kind, and its value has as many low bits of the datapoint as the form keeps. -/
structure Keeps (d : Descriptor) (word datapoint : Nat) : Prop extends Fits d where
  pack_eq : d.pack = word
  form_eq : d.payload.form = d.kind.form
  value_eq : d.payload.value = datapoint % 2 ^ d.kind.form.bits

variable {d : Descriptor} {kind : TypeKind} {word datapoint : Nat}

theorem fits_ofKind : (ofKind kind word datapoint).Fits where
  attributes_lt := Nat.mod_lt _ (by decide)
  modifiers_lt := Nat.mod_lt _ (by decide)

/-- **The fields cover the word.** None of its bits lies outside of them or in two of them. -/
theorem pack_ofKind (h_word : word < 2 ^ 32) (h_tag : kind.tag = tagOf word) :
    (ofKind kind word datapoint).pack = word := by
  -- with the flags as numbers, each field is a quotient of the word up to a power of two
  simp only [pack, ofKind, h_tag, tagOf, Nat.toNat_testBit]
  omega

theorem testBit_eq_of_toNat {n i : Nat} {flag : Bool} (h : n / 2 ^ i % 2 = flag.toNat) :
    n.testBit i = flag := by
  rw [Nat.testBit_eq_decide_div_mod_eq, h]
  cases flag <;> rfl

namespace Fits

variable (h : d.Fits)

include h

/-- None of the fields reaches into the next one. -/
theorem room : d.attributes < 2 ^ 16 ∧ d.kind.tag < 2 ^ 8 ∧ d.modifiers < 2 ^ 6 ∧
    d.byref.toNat < 2 ∧ d.pinned.toNat < 2 :=
  ⟨h.attributes_lt, (TypeKind.isTag_tag d.kind).lt.trans (by decide), h.modifiers_lt,
    Bool.toNat_lt _, Bool.toNat_lt _⟩

theorem pack_lt : d.pack < 2 ^ 32 := by
  have h_room := h.room
  unfold pack
  omega

theorem tagOf_pack : tagOf d.pack = d.kind.tag := by
  have h_room := h.room
  unfold tagOf pack
  omega

/-- **The fields do not interfere.** Each of them is found again in the packed word. -/
theorem ofKind_pack (h_payload : d.kind.payload datapoint = d.payload) :
    ofKind d.kind d.pack datapoint = d := by
  -- what stands below a field is less than one unit of it, and what stands above is cut off
  have h_room := h.room
  have h_attributes : d.pack % 0x10000 = d.attributes := by
    unfold pack
    omega
  have h_modifiers : d.pack / 0x1000000 % 0x40 = d.modifiers := by
    unfold pack
    omega
  have h_byref : d.pack / 2 ^ 30 % 2 = d.byref.toNat := by
    unfold pack
    omega
  have h_pinned : d.pack / 2 ^ 31 % 2 = d.pinned.toNat := by
    unfold pack
    omega
  rw [ofKind, h_attributes, h_modifiers, testBit_eq_of_toNat h_byref,
    testBit_eq_of_toNat h_pinned, h_payload]

end Fits

/-! ### Unpacking -/

theorem unpack_eq_ok_iff :
    unpack word datapoint = .ok d ↔ d.kind.tag = tagOf word ∧ ofKind d.kind word datapoint = d := by
  unfold unpack
  split
  next h_none =>
    refine iff_of_false (fun h => by cases h) fun h => ?_
    rw [TypeKind.ofTag?_eq_some_iff.mpr h.1] at h_none
    cases h_none
  next kind h_kind =>
    have h_tag := TypeKind.ofTag?_eq_some_iff.mp h_kind
    constructor
    · intro h
      cases h
      exact ⟨h_tag, rfl⟩
    · rintro ⟨h_same, h_d⟩
      -- there is no second kind with this tag
      have h_kinds : kind = d.kind := TypeKind.tag_inj.mp (h_tag.trans h_same.symm)
      rw [← h_d, h_kinds]
      rfl

/-- A known tag is all that is asked of a word. -/
theorem exists_unpack_iff :
    (∃ d, unpack word datapoint = .ok d) ↔ TypeKind.IsTag (tagOf word) := by
  simp only [unpack_eq_ok_iff, ← TypeKind.exists_tag_eq_iff]
  constructor
  · rintro ⟨d, h_tag, -⟩
    exact ⟨d.kind, h_tag⟩
  · rintro ⟨kind, h_tag⟩
    exact ⟨ofKind kind word datapoint, h_tag, rfl⟩

/-- An unknown tag is named by the error. -/
theorem unpack_eq_error_iff :
    unpack word datapoint = .error (.malformed (.kindTag (tagOf word))) ↔
      ¬ TypeKind.IsTag (tagOf word) := by
  rw [← TypeKind.ofTag?_eq_none_iff]
  unfold unpack
  split
  next h_none => exact iff_of_true rfl h_none
  next h_kind => simp [h_kind]

/-- **Unpacking** gives the one descriptor that keeps the word, and what its kind needs of the
datapoint. -/
theorem unpack_eq_ok_iff_keeps (h_word : word < 2 ^ 32) (h_datapoint : datapoint < 2 ^ 64) :
    unpack word datapoint = .ok d ↔ d.Keeps word datapoint := by
  rw [unpack_eq_ok_iff]
  constructor
  · rintro ⟨h_tag, h_d⟩
    have h_payload : d.payload = d.kind.form.read datapoint := by
      rw [← TypeKind.payload_eq_read, ← h_d]
      rfl
    exact
      { toFits := h_d ▸ fits_ofKind
        pack_eq := (congrArg pack h_d).symm.trans (pack_ofKind h_word h_tag)
        form_eq := by rw [h_payload, Payload.Form.form_read]
        value_eq := by rw [h_payload, Payload.Form.value_read _ h_datapoint] }
  · intro h
    have h_payload : d.kind.payload datapoint = d.payload := by
      rw [TypeKind.payload_eq_read]
      refine Payload.eq_of_form_of_value ?_ ?_
      · rw [Payload.Form.form_read, h.form_eq]
      · rw [Payload.Form.value_read _ h_datapoint, h.value_eq]
    rw [← h.pack_eq]
    exact ⟨h.tagOf_pack.symm, h.ofKind_pack h_payload⟩

/-- **One word for each combination.** Whatever is to stand in the fields, exactly one word has it
there, whichever datapoint is next to it. -/
theorem existsUnique_word {attributes modifiers : Nat} (h_attributes : attributes < 2 ^ 16)
    (kind : TypeKind) (h_modifiers : modifiers < 2 ^ 6) (byref pinned : Bool)
    (h_datapoint : datapoint < 2 ^ 64) :
    ∃! word : BitVec 32, ∃ payload,
      unpack word.toNat datapoint = .ok ⟨attributes, kind, modifiers, byref, pinned, payload⟩ := by
  let d : Descriptor := ⟨attributes, kind, modifiers, byref, pinned, kind.payload datapoint⟩
  have h_fits : d.Fits := ⟨h_attributes, h_modifiers⟩
  have h_word : (BitVec.ofNat 32 d.pack).toNat = d.pack := by
    rw [BitVec.toNat_ofNat, Nat.mod_eq_of_lt h_fits.pack_lt]
  refine ⟨BitVec.ofNat 32 d.pack, ⟨kind.payload datapoint, ?_⟩, ?_⟩
  · rw [h_word]
    exact unpack_eq_ok_iff.mpr ⟨h_fits.tagOf_pack.symm, h_fits.ofKind_pack rfl⟩
  · rintro word ⟨payload, h_unpack⟩
    -- the payload has no part in the word
    have h_keeps := (unpack_eq_ok_iff_keeps word.isLt h_datapoint).mp h_unpack
    refine BitVec.eq_of_toNat_eq ?_
    rw [h_word, ← h_keeps.pack_eq]
    rfl

/-- The tag has the bits from 16 to 23. -/
theorem toNat_extractLsb (word : BitVec 32) :
    (word.extractLsb 23 16).toNat = tagOf word.toNat := by
  rw [BitVec.extractLsb_toNat, Nat.shiftRight_eq_div_pow]
  rfl

/-- **Descriptors are packed without loss.** A kind is found by its own tag only. Any 32 bits next
to any 64 bits are unpacked exactly if the bits from 16 to 23 are a known tag, and otherwise the
error names the unknown one. The descriptor is the one that keeps them: all bits of the word are
told by its fields, and the payload is one of the form that belongs to the kind, with all bits of
the datapoint if this is an address and with the low 32 if it is a position.

The other way round, each choice of 16 attribute bits, a kind, a number of modifiers below 64 and
two flags is what exactly one word is unpacked into. -/
theorem unpack_lossless :
    (∀ tag kind, TypeKind.ofTag? tag = some kind ↔ kind.tag = tag) ∧
    (∀ (word : BitVec 32) (datapoint : BitVec 64),
      ((∃ d, unpack word.toNat datapoint.toNat = .ok d) ↔
        TypeKind.IsTag (word.extractLsb 23 16).toNat) ∧
      (unpack word.toNat datapoint.toNat =
          .error (.malformed (.kindTag (word.extractLsb 23 16).toNat)) ↔
        ¬ TypeKind.IsTag (word.extractLsb 23 16).toNat) ∧
      ∀ d, unpack word.toNat datapoint.toNat = .ok d ↔ d.Keeps word.toNat datapoint.toNat) ∧
    ∀ (attributes : BitVec 16) (kind : TypeKind) (modifiers : BitVec 6) (byref pinned : Bool)
      (datapoint : BitVec 64), ∃! word : BitVec 32, ∃ payload,
        unpack word.toNat datapoint.toNat =
          .ok ⟨attributes.toNat, kind, modifiers.toNat, byref, pinned, payload⟩ := by
  refine ⟨fun _ _ => TypeKind.ofTag?_eq_some_iff, fun word datapoint => ?_,
    fun attributes kind modifiers byref pinned datapoint => ?_⟩
  · rw [toNat_extractLsb]
    exact ⟨exists_unpack_iff, unpack_eq_error_iff,
      fun d => unpack_eq_ok_iff_keeps word.isLt datapoint.isLt⟩
  · exact existsUnique_word attributes.isLt kind modifiers.isLt byref pinned datapoint.isLt

example : unpack 0xC5080011 0 = .ok ⟨0x11, .i4, 5, true, true, .none⟩ := by decide

end Descriptor

/-! ### Descriptors of an image -/

namespace Registration

theorem exists_keeps_of_readDescriptor {image : Image} {layout : ResolvedLayout} {address : Nat}
    {d : Descriptor} (h : readDescriptor image layout address = .ok d) :
    ∃ word < 2 ^ 32, ∃ datapoint < 2 ^ 64, d.Keeps word datapoint := by
  obtain ⟨record, h_record, h⟩ := except_bind_eq_ok_iff.mp h
  obtain ⟨_, -, h_record⟩ := except_bind_eq_ok_iff.mp h_record
  obtain ⟨_, -, h_read⟩ := ResolvedLayout.readAt_eq_ok_iff.mp h_record
  -- the two fields of the structure
  obtain ⟨word, h_word, h⟩ := except_bind_eq_ok_iff.mp h
  obtain ⟨datapoint, h_datapoint, h_unpack⟩ := except_bind_eq_ok_iff.mp h
  obtain ⟨n, -, rfl⟩ := except_map_eq_ok_iff.mp h_word
  have h_low : asUInt32 n < 2 ^ 32 := Nat.mod_lt _ (by decide)
  have h_datapoint : datapoint < 2 ^ 64 := ResolvedLayout.get_lt_of_read h_read h_datapoint
  exact ⟨_, h_low, _, h_datapoint,
    (Descriptor.unpack_eq_ok_iff_keeps h_low h_datapoint).mp h_unpack⟩

/-- **All descriptors of an image**, those in the table of types and those at any other address,
have been unpacked from 32 and 64 bits, and keep them. -/
theorem exists_keeps_of_read {source : RegistrationSource} {pair : VersionPair}
    {tables : Registration} (h : read source pair = .ok tables) {d : Descriptor}
    (h_d : d ∈ tables.types ∨ ∃ address, tables.typeAt address = .ok d) :
    ∃ word < 2 ^ 32, ∃ datapoint < 2 ^ 64, d.Keeps word datapoint := by
  have h_decoded := decodedFrom_of_read h
  rcases h_d with h_mem | ⟨address, h_address⟩
  · obtain ⟨i, h_i, rfl⟩ := List.getElem_of_mem (Array.mem_toList_iff.mpr h_mem)
    have h_types := h_decoded.types
    exact exists_keeps_of_readDescriptor (h_types.get (h_types.length_eq ▸ h_i) h_i)
  · rw [h_decoded.typeAt_eq] at h_address
    exact exists_keeps_of_readDescriptor h_address

end Registration

end GlobalMetadata
