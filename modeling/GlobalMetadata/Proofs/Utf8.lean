import GlobalMetadata.Text.Utf8

/-!
# Decoding is the inverse of UTF-8

`Utf8.decode` goes through the bytes character by character and says where the first fault is. Here
it is compared with how a `String` is stored: the bytes that can be decoded are those of a text, and
they are decoded to that text (`Utf8.decode_eq_ok_iff`).

`Utf8.Code` lists the bytes that stand for a character, with a rule for each of the four lengths.
The decoder takes exactly these off the front, and they are what a character is written as.
-/

namespace GlobalMetadata

namespace Utf8

/-- The bytes that stand for a character, one rule for each of their numbers. -/
inductive Code : Char → List UInt8 → Prop
  | one {a : UInt8} (h_a : announced a = 1) : Code (Char.ofNat a.toNat) [a]
  | two {a b : UInt8} (h_a : announced a = 2) (h_b : mayFollow a b = true) :
      Code (Char.ofNat (a.toNat % 32 * 64 + payload b)) [a, b]
  | three {a b c : UInt8} (h_a : announced a = 3) (h_b : mayFollow a b = true)
      (h_c : isTail c = true) :
      Code (Char.ofNat (a.toNat % 16 * 4096 + payload b * 64 + payload c)) [a, b, c]
  | four {a b c d : UInt8} (h_a : announced a = 4) (h_b : mayFollow a b = true)
      (h_c : isTail c = true) (h_d : isTail d = true) :
      Code (Char.ofNat (a.toNat % 8 * 262144 + payload b * 4096 + payload c * 64 + payload d))
        [a, b, c, d]

variable {a b c d : UInt8} {character : Char} {code bytes : List UInt8}

/-! The conditions on the bytes, as conditions on numbers. -/

theorem announced_iff (a : UInt8) :
    (announced a = 1 ↔ a.toNat < 128) ∧
    (announced a = 2 ↔ 194 ≤ a.toNat ∧ a.toNat ≤ 223) ∧
    (announced a = 3 ↔ 224 ≤ a.toNat ∧ a.toNat ≤ 239) ∧
    (announced a = 4 ↔ 240 ≤ a.toNat ∧ a.toNat ≤ 244) := by
  simp only [announced, UInt8.lt_iff_toNat_lt, UInt8.le_iff_toNat_le, UInt8.reduceToNat]
  grind

theorem isTail_iff : isTail b = true ↔ 128 ≤ b.toNat ∧ b.toNat ≤ 191 := by
  simp only [isTail, Bool.and_eq_true, decide_eq_true_eq, UInt8.le_iff_toNat_le,
    UInt8.reduceToNat]

theorem mayFollow_iff : mayFollow a b = true ↔
    128 ≤ b.toNat ∧ b.toNat ≤ 191 ∧ (a.toNat = 224 → 160 ≤ b.toNat) ∧
      (a.toNat = 237 → b.toNat ≤ 159) ∧ (a.toNat = 240 → 144 ≤ b.toNat) ∧
      (a.toNat = 244 → b.toNat ≤ 143) := by
  simp only [mayFollow, isTail, ← UInt8.toNat_inj, UInt8.reduceToNat, UInt8.le_iff_toNat_le]
  grind

theorem toNat_val_ofNat {n : Nat} (h : n.isValidChar) : (Char.ofNat n).val.toNat = n := by
  unfold Char.ofNat
  rw [dif_pos h]
  rfl

theorem ofNat_eq {n : Nat} (h : n = a.toNat) : UInt8.ofNat n = a := by
  rw [h, UInt8.ofNat_toNat]

theorem exists_toNat {n : Nat} (h : n < 256) : ∃ a : UInt8, n = a.toNat :=
  ⟨UInt8.ofNat n, by rw [UInt8.toNat_ofNat', Nat.mod_eq_of_lt h]⟩

/-- The bytes that stand for a character are those that it is written as. -/
theorem Code.encode (h : Code character code) : String.utf8EncodeChar character = code := by
  unfold String.utf8EncodeChar
  cases h with
  | one h_a =>
    have h_a := (announced_iff _).1.mp h_a
    rw [toNat_val_ofNat (by unfold Nat.isValidChar; omega)]
    dsimp only
    rw [if_pos (by omega), UInt8.ofNat_toNat]
  | two h_a h_b =>
    have h_a := (announced_iff _).2.1.mp h_a
    have h_b := mayFollow_iff.mp h_b
    unfold payload
    rw [toNat_val_ofNat (by unfold Nat.isValidChar; omega)]
    dsimp only
    rw [if_neg (by omega), if_pos (by omega)]
    simp only [List.cons.injEq, and_true]
    exact ⟨ofNat_eq (by omega), ofNat_eq (by omega)⟩
  | three h_a h_b h_c =>
    have h_a := (announced_iff _).2.2.1.mp h_a
    have h_b := mayFollow_iff.mp h_b
    have h_c := isTail_iff.mp h_c
    unfold payload
    rw [toNat_val_ofNat (by unfold Nat.isValidChar; omega)]
    dsimp only
    rw [if_neg (by omega), if_neg (by omega), if_pos (by omega)]
    simp only [List.cons.injEq, and_true]
    exact ⟨ofNat_eq (by omega), ofNat_eq (by omega), ofNat_eq (by omega)⟩
  | four h_a h_b h_c h_d =>
    have h_a := (announced_iff _).2.2.2.mp h_a
    have h_b := mayFollow_iff.mp h_b
    have h_c := isTail_iff.mp h_c
    have h_d := isTail_iff.mp h_d
    unfold payload
    rw [toNat_val_ofNat (by unfold Nat.isValidChar; omega)]
    dsimp only
    rw [if_neg (by omega), if_neg (by omega), if_neg (by omega)]
    simp only [List.cons.injEq, and_true]
    exact ⟨ofNat_eq (by omega), ofNat_eq (by omega), ofNat_eq (by omega), ofNat_eq (by omega)⟩

/-- Every character is written as bytes that stand for it. -/
theorem code_encode (character : Char) : Code character (String.utf8EncodeChar character) := by
  have h_valid : character.val.toNat.isValidChar := character.valid
  have h_character : Char.ofNat character.val.toNat = character := Char.ofNat_toNat character
  unfold Nat.isValidChar at h_valid
  unfold String.utf8EncodeChar
  generalize character.val.toNat = n at h_valid h_character
  subst h_character
  dsimp only
  by_cases h_one : n ≤ 127
  · obtain ⟨a, h_a⟩ := exists_toNat (n := n) (by omega)
    rw [if_pos h_one, h_a, UInt8.ofNat_toNat]
    exact .one ((announced_iff a).1.mpr (by omega))
  by_cases h_two : n ≤ 2047
  · obtain ⟨a, h_a⟩ := exists_toNat (n := n / 64 % 32 + 192) (by omega)
    obtain ⟨b, h_b⟩ := exists_toNat (n := n % 64 + 128) (by omega)
    have h_n : n = a.toNat % 32 * 64 + payload b := by
      unfold payload
      omega
    rw [if_neg h_one, if_pos h_two, h_a, h_b, UInt8.ofNat_toNat, UInt8.ofNat_toNat, h_n]
    exact .two ((announced_iff a).2.1.mpr (by omega)) (mayFollow_iff.mpr (by omega))
  by_cases h_three : n ≤ 65535
  · obtain ⟨a, h_a⟩ := exists_toNat (n := n / 4096 % 16 + 224) (by omega)
    obtain ⟨b, h_b⟩ := exists_toNat (n := n / 64 % 64 + 128) (by omega)
    obtain ⟨c, h_c⟩ := exists_toNat (n := n % 64 + 128) (by omega)
    have h_n : n = a.toNat % 16 * 4096 + payload b * 64 + payload c := by
      unfold payload
      omega
    rw [if_neg h_one, if_neg h_two, if_pos h_three, h_a, h_b, h_c, UInt8.ofNat_toNat,
      UInt8.ofNat_toNat, UInt8.ofNat_toNat, h_n]
    exact .three ((announced_iff a).2.2.1.mpr (by omega)) (mayFollow_iff.mpr (by omega))
      (isTail_iff.mpr (by omega))
  · obtain ⟨a, h_a⟩ := exists_toNat (n := n / 262144 % 8 + 240) (by omega)
    obtain ⟨b, h_b⟩ := exists_toNat (n := n / 4096 % 64 + 128) (by omega)
    obtain ⟨c, h_c⟩ := exists_toNat (n := n / 64 % 64 + 128) (by omega)
    obtain ⟨d, h_d⟩ := exists_toNat (n := n % 64 + 128) (by omega)
    have h_n : n = a.toNat % 8 * 262144 + payload b * 4096 + payload c * 64 + payload d := by
      unfold payload
      omega
    rw [if_neg h_one, if_neg h_two, if_neg h_three, h_a, h_b, h_c, h_d, UInt8.ofNat_toNat,
      UInt8.ofNat_toNat, UInt8.ofNat_toNat, UInt8.ofNat_toNat, h_n]
    exact .four ((announced_iff a).2.2.2.mpr (by omega)) (mayFollow_iff.mpr (by omega))
      (isTail_iff.mpr (by omega)) (isTail_iff.mpr (by omega))

/-- A character in front of other bytes is decoded first. -/
theorem Code.decodeFrom (h : Code character code) (i : Nat) (rest : List UInt8) :
    decodeFrom i (code ++ rest) = (character :: ·) <$> decodeFrom (i + code.length) rest := by
  cases h with
  | one h_a =>
    show Utf8.decodeFrom i (_ :: rest) = _
    rw [Utf8.decodeFrom.eq_def]
    simp only [h_a]
    rfl
  | two h_a h_b =>
    show Utf8.decodeFrom i (_ :: _ :: rest) = _
    rw [Utf8.decodeFrom.eq_def]
    simp only [h_a, h_b]
    rfl
  | three h_a h_b h_c =>
    show Utf8.decodeFrom i (_ :: _ :: _ :: rest) = _
    rw [Utf8.decodeFrom.eq_def]
    simp only [h_a, h_b, h_c]
    rfl
  | four h_a h_b h_c h_d =>
    show Utf8.decodeFrom i (_ :: _ :: _ :: _ :: rest) = _
    rw [Utf8.decodeFrom.eq_def]
    simp only [h_a, h_b, h_c, h_d]
    rfl

/-- What follows a character is decoded after it. -/
theorem Code.append_eq {characters : List Char} {i : Nat} {rest : List UInt8}
    (h_code : Code character code)
    (h_rest : ∀ {characters}, Utf8.decodeFrom i rest = .ok characters →
      rest = characters.flatMap String.utf8EncodeChar)
    (h : (character :: ·) <$> Utf8.decodeFrom i rest = .ok characters) :
    code ++ rest = characters.flatMap String.utf8EncodeChar := by
  cases h_characters : Utf8.decodeFrom i rest with
  | error fault =>
    rw [h_characters] at h
    cases h
  | ok others =>
    rw [h_characters] at h
    cases h
    rw [List.flatMap_cons, h_code.encode, ← h_rest h_characters]

theorem eq_flatMap_of_decodeFrom {i : Nat} {characters : List Char}
    (h : Utf8.decodeFrom i bytes = .ok characters) :
    bytes = characters.flatMap String.utf8EncodeChar := by
  fun_induction Utf8.decodeFrom i bytes generalizing characters
  case case1 =>
    cases h
    rfl
  case case2 h_a ih => exact Code.append_eq (.one h_a) ih h
  case case4 h_a _ _ h_b ih => exact Code.append_eq (.two h_a h_b) ih h
  case case10 h_a b c rest h_b h_c ih =>
    exact Code.append_eq (.three h_a (by simpa using h_b) (by simpa using h_c)) ih h
  case case17 h_a b c d rest h_b h_c h_d ih =>
    exact Code.append_eq
      (.four h_a (by simpa using h_b) (by simpa using h_c) (by simpa using h_d)) ih h
  all_goals cases h

theorem decodeFrom_flatMap (i : Nat) (characters : List Char) :
    Utf8.decodeFrom i (characters.flatMap String.utf8EncodeChar) = .ok characters := by
  induction characters generalizing i with
  | nil => rfl
  | cons character characters ih =>
    rw [List.flatMap_cons, (code_encode character).decodeFrom, ih]
    rfl

/-- **Decoding.** The bytes that can be decoded are those of a text, and they give that text. -/
theorem decode_eq_ok_iff {text : String} :
    decode bytes = .ok text ↔ bytes = text.toByteArray.data.toList := by
  have h_written : text.toByteArray.data.toList = text.toList.flatMap String.utf8EncodeChar := by
    rw [← String.utf8Encode_toList]
    exact List.toList_data_toByteArray
  rw [h_written]
  constructor
  · intro h
    unfold decode at h
    cases h_characters : Utf8.decodeFrom 0 bytes with
    | error fault =>
      rw [h_characters] at h
      cases h
    | ok characters =>
      rw [h_characters] at h
      cases h
      rw [String.toList_ofList]
      exact eq_flatMap_of_decodeFrom h_characters
  · rintro rfl
    rw [decode, decodeFrom_flatMap]
    exact congrArg Except.ok String.ofList_toList

end Utf8

end GlobalMetadata
