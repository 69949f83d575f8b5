import GlobalMetadata.Image
import GlobalMetadata.Proofs.Follow
import GlobalMetadata.Proofs.Inversion
import GlobalMetadata.Proofs.Utf8
import Mathlib.Data.List.TakeDrop
import Mathlib.Data.List.TakeWhile

/-!
# Terminated texts

A text in front of a zero byte is read in three ways: from a heap, with a cursor, and by address
from an image. The first two scan for the zero byte. An image is read in pieces of 64 bytes, and
byte by byte where a piece would reach past the end of the file.

`Bytes.TextAt` says which text stands at a place: the bytes in front of the next zero byte are its
UTF-8. The three readers find this text and no other, and fail where there is none
(`text_readers_agree`).

The model bounds the number of pieces. `Image.Gathers` is the reading in pieces without a bound, one
rule for each way in which a piece can be followed up. It always comes to an end, and with no more
pieces than there are bytes.
-/

namespace GlobalMetadata

/-! ### Runs of bytes in front of a zero byte -/

namespace Bytes

/-- The run ends with the first zero byte. -/
def Terminates (bytes run : List UInt8) : Prop :=
  ∃ rest, bytes = run ++ 0 :: rest ∧ 0 ∉ run

/-- The text that stands at some place, with a zero byte behind it and none in it. -/
def TextAt (data : ByteArray) (start : Nat) (text : String) : Prop :=
  Terminates (data.data.toList.drop start) text.toByteArray.data.toList

variable {bytes run : List UInt8}

theorem not_terminates_nil : ¬ Terminates [] run := by
  rintro ⟨rest, h, -⟩
  cases run <;> cases h

theorem terminates_zero_cons : Terminates (0 :: bytes) run ↔ run = [] := by
  constructor
  · rintro ⟨rest, h, h_run⟩
    cases run with
    | nil => rfl
    | cons byte run =>
      cases h
      exact absurd List.mem_cons_self h_run
  · rintro rfl
    exact ⟨bytes, rfl, List.not_mem_nil⟩

/-- Bytes other than zero are passed over. -/
theorem terminates_append {piece : List UInt8} (h : 0 ∉ piece) :
    Terminates (piece ++ bytes) run ↔ ∃ run', Terminates bytes run' ∧ run = piece ++ run' := by
  constructor
  · rintro ⟨rest, h_bytes, h_run⟩
    rcases List.append_eq_append_iff.mp h_bytes with ⟨run', rfl, rfl⟩ | ⟨piece', rfl, h_rest⟩
    · exact ⟨run', ⟨rest, rfl, fun h_mem => h_run (List.mem_append_right piece h_mem)⟩, rfl⟩
    · -- the zero byte behind the run would be one of the piece
      cases piece' with
      | nil => exact ⟨[], ⟨rest, h_rest.symm, List.not_mem_nil⟩, by simp⟩
      | cons byte piece' =>
        cases h_rest
        exact absurd (List.mem_append_right run List.mem_cons_self) h
  · rintro ⟨run', ⟨rest, rfl, h_run'⟩, rfl⟩
    refine ⟨rest, (List.append_assoc _ _ _).symm, fun h_mem => ?_⟩
    exact (List.mem_append.mp h_mem).elim h h_run'

theorem terminates_cons {byte : UInt8} (h : byte ≠ 0) :
    Terminates (byte :: bytes) run ↔ ∃ run', Terminates bytes run' ∧ run = byte :: run' := by
  have h_byte : 0 ∉ [byte] := fun h_mem => h (List.mem_singleton.mp h_mem).symm
  exact terminates_append h_byte

theorem span_of_not_mem (h : 0 ∉ bytes) : bytes.span (· ≠ 0) = (bytes, []) := by
  have h_all : ∀ byte ∈ bytes, decide (byte ≠ 0) = true :=
    fun _ h_byte => decide_eq_true (ne_of_mem_of_not_mem h_byte h)
  rw [List.span_eq_takeWhile_dropWhile, List.takeWhile_eq_self_iff.mpr h_all,
    List.dropWhile_eq_nil_iff.mpr h_all]

theorem span_of_zero {rest : List UInt8} (h : 0 ∉ run) :
    (run ++ 0 :: rest).span (· ≠ 0) = (run, 0 :: rest) := by
  have h_all : ∀ byte ∈ run, decide (byte ≠ 0) = true :=
    fun _ h_byte => decide_eq_true (ne_of_mem_of_not_mem h_byte h)
  rw [List.span_eq_takeWhile_dropWhile, List.takeWhile_append_of_pos h_all,
    List.dropWhile_append_of_pos h_all]
  simp

variable {data : ByteArray} {fuel i stop : Nat}

theorem drop_eq_cons (h : i < data.size) :
    data.data.toList.drop i = data.get i h :: data.data.toList.drop (i + 1) :=
  List.drop_eq_getElem_cons (l := data.data.toList) h

theorem drop_eq_nil (h : data.size ≤ i) : data.data.toList.drop i = [] :=
  List.drop_eq_nil_of_le h

theorem zeroWithin?_eq_some_iff : zeroWithin? data fuel i = some stop ↔
    ∃ run, Terminates (data.data.toList.drop i) run ∧ run.length < fuel ∧
      stop = i + run.length := by
  induction fuel generalizing i with
  | zero => exact iff_of_false (fun h => by cases h) fun ⟨_, _, h, _⟩ => Nat.not_lt_zero _ h
  | succ fuel ih =>
    by_cases h_inside : i < data.size
    · rw [zeroWithin?_succ h_inside, drop_eq_cons h_inside]
      generalize data.get i h_inside = byte
      by_cases h_zero : byte = 0
      · -- the run is empty
        rw [if_pos h_zero, h_zero]
        constructor
        · rintro ⟨⟩
          exact ⟨[], terminates_zero_cons.mpr rfl, Nat.succ_pos fuel, rfl⟩
        · rintro ⟨run, h_run, -, rfl⟩
          rw [terminates_zero_cons.mp h_run]
          rfl
      · rw [if_neg h_zero, ih]
        simp only [terminates_cons h_zero]
        constructor
        · rintro ⟨run, h_run, h_length, rfl⟩
          refine ⟨_, ⟨run, h_run, rfl⟩, Nat.succ_lt_succ h_length, ?_⟩
          rw [List.length_cons, Nat.add_right_comm, Nat.add_assoc]
        · rintro ⟨_, ⟨run, h_run, rfl⟩, h_length, rfl⟩
          refine ⟨run, h_run, Nat.lt_of_succ_lt_succ h_length, ?_⟩
          rw [List.length_cons, Nat.add_right_comm, Nat.add_assoc]
    · rw [zeroWithin?_succ_of_le h_inside, drop_eq_nil (Nat.le_of_not_lt h_inside)]
      exact iff_of_false (fun h => by cases h) fun ⟨_, h, _⟩ => not_terminates_nil h

/-- The scan finds the run in front of the next zero byte. -/
theorem terminated?_eq_some_iff :
    terminated? data i = some run ↔ Terminates (data.data.toList.drop i) run := by
  have h_length : (data.data.toList.drop i).length = data.size - i := List.length_drop
  unfold terminated?
  constructor
  · intro h
    cases h_stop : zeroWithin? data (data.size - i) i with
    | none =>
      rw [h_stop] at h
      cases h
    | some stop =>
      obtain ⟨run', h_run', h_short, rfl⟩ := zeroWithin?_eq_some_iff.mp h_stop
      rw [h_stop] at h
      dsimp only at h
      rw [slice?_eq_some (by omega), Nat.add_sub_cancel_left] at h
      obtain ⟨rest, h_bytes, -⟩ := id h_run'
      rw [h_bytes, List.take_left] at h
      cases h
      exact h_run'
  · intro h_run
    obtain ⟨rest, h_bytes, -⟩ := id h_run
    have h_short : run.length < data.size - i := by
      rw [← h_length, h_bytes, List.length_append, List.length_cons]
      omega
    rw [zeroWithin?_eq_some_iff.mpr ⟨run, h_run, h_short, rfl⟩]
    dsimp only
    rw [slice?_eq_some (by omega), Nat.add_sub_cancel_left, h_bytes, List.take_left]

/-- Scanning and decoding find the text. -/
theorem textAt_iff {text : String} : TextAt data i text ↔
    ∃ run, terminated? data i = some run ∧ Utf8.decode run = .ok text := by
  simp only [terminated?_eq_some_iff, Utf8.decode_eq_ok_iff, TextAt]
  constructor
  · intro h
    exact ⟨_, h, rfl⟩
  · rintro ⟨run, h, rfl⟩
    exact h

end Bytes

/-! ### Reading in pieces -/

namespace Image

variable (image : Image)

/-- The next piece of a text: 64 bytes, or a single one if these do not lie inside the file. -/
def piece (offset : Nat) : Except Error (List UInt8) :=
  match image.readBytes offset textPiece with
  | .ok bytes => .ok bytes
  | .error _ => image.readBytes offset 1

/-- **Reading in pieces**, for as long as there is no zero byte. -/
inductive Gathers : Nat → Except Error (List UInt8) → Prop
  /-- There is no byte left. -/
  | outside {offset : Nat} {e : Error} (h_piece : image.piece offset = .error e) :
      Gathers offset (.error e)
  /-- The piece has a zero byte. -/
  | ended {offset : Nat} {run rest : List UInt8}
      (h_piece : image.piece offset = .ok (run ++ 0 :: rest)) (h_run : 0 ∉ run) :
      Gathers offset (.ok run)
  /-- The text goes on behind the piece. -/
  | goes_on {offset : Nat} {bytes : List UInt8} {result : Except Error (List UInt8)}
      (h_piece : image.piece offset = .ok bytes) (h_bytes : 0 ∉ bytes)
      (h_rest : Gathers (offset + bytes.length) result) :
      Gathers offset ((bytes ++ ·) <$> result)

variable {image} {offset fuel : Nat} {result : Except Error (List UInt8)}

theorem readBytes_of_inside {length : Nat} (h : offset + length ≤ image.data.size) :
    image.readBytes offset length = .ok ((image.data.data.toList.drop offset).take length) := by
  rw [readBytes, Bytes.slice?_eq_some h]

theorem readBytes_of_outside {length : Nat} (h : ¬ offset + length ≤ image.data.size) :
    image.readBytes offset length = .error .outOfBounds := by
  rw [readBytes, Bytes.slice?, Bytes.part?, if_neg h]
  rfl

/-- A piece takes some bytes off the rest of the file, as long as there are any. -/
theorem piece_cases (image : Image) (offset : Nat) :
    (image.data.size ≤ offset ∧ image.piece offset = .error .outOfBounds) ∨
    ∃ bytes, image.piece offset = .ok bytes ∧ bytes ≠ [] ∧
      image.data.data.toList.drop offset =
        bytes ++ image.data.data.toList.drop (offset + bytes.length) := by
  -- a part of the rest
  have h_take (length : Nat) (h_inside : offset + length ≤ image.data.size) (h_pos : 0 < length) :
      (image.data.data.toList.drop offset).take length ≠ [] ∧
        image.data.data.toList.drop offset = (image.data.data.toList.drop offset).take length ++
          image.data.data.toList.drop
            (offset + ((image.data.data.toList.drop offset).take length).length) := by
    have h_length : ((image.data.data.toList.drop offset).take length).length = length :=
      Bytes.length_inside h_inside
    rw [h_length, ← List.drop_drop, List.take_append_drop]
    exact ⟨List.ne_nil_of_length_pos (Nat.lt_of_lt_of_eq h_pos h_length.symm), rfl⟩
  unfold piece
  by_cases h_piece : offset + textPiece ≤ image.data.size
  · rw [readBytes_of_inside h_piece]
    exact .inr ⟨_, rfl, h_take textPiece h_piece (by decide)⟩
  rw [readBytes_of_outside h_piece]
  by_cases h_byte : offset + 1 ≤ image.data.size
  · rw [readBytes_of_inside h_byte]
    exact .inr ⟨_, rfl, h_take 1 h_byte Nat.one_pos⟩
  · rw [readBytes_of_outside h_byte]
    exact .inl ⟨by omega, rfl⟩

theorem piece_eq_ok {bytes : List UInt8} (h : image.piece offset = .ok bytes) : bytes ≠ [] ∧
    image.data.data.toList.drop offset =
      bytes ++ image.data.data.toList.drop (offset + bytes.length) := by
  obtain ⟨-, h_error⟩ | ⟨bytes', h_ok, h_bytes⟩ := piece_cases image offset
  · rw [h] at h_error
    cases h_error
  · rw [h] at h_ok
    cases h_ok
    exact h_bytes

theorem piece_eq_error {e : Error} (h : image.piece offset = .error e) :
    image.data.size ≤ offset ∧ e = .outOfBounds := by
  obtain ⟨h_end, h_error⟩ | ⟨bytes, h_ok, -⟩ := piece_cases image offset
  · rw [h] at h_error
    cases h_error
    exact ⟨h_end, rfl⟩
  · rw [h] at h_ok
    cases h_ok

/-- What is gathered is the run in front of the next zero byte. -/
theorem Gathers.eq_ok_iff (h : image.Gathers offset result) {run : List UInt8} :
    result = .ok run ↔ Bytes.Terminates (image.data.data.toList.drop offset) run := by
  induction h generalizing run with
  | outside h_piece =>
    rw [Bytes.drop_eq_nil (piece_eq_error h_piece).1]
    exact iff_of_false (fun h => by cases h) Bytes.not_terminates_nil
  | ended h_piece h_run =>
    rw [(piece_eq_ok h_piece).2, List.append_assoc, List.cons_append,
      Bytes.terminates_append h_run]
    simp only [Bytes.terminates_zero_cons, exists_eq_left, List.append_nil, Except.ok.injEq,
      eq_comm]
  | @goes_on offset bytes result h_piece h_bytes _ ih =>
    rw [(piece_eq_ok h_piece).2, Bytes.terminates_append h_bytes]
    simp only [← ih]
    cases result with
    | error e => exact iff_of_false (fun h => by cases h) fun ⟨_, h, _⟩ => by cases h
    | ok run' =>
      constructor
      · rintro ⟨⟩
        exact ⟨run', rfl, rfl⟩
      · rintro ⟨_, ⟨⟩, rfl⟩
        rfl

theorem Gathers.eq_outOfBounds {e : Error} (h : image.Gathers offset (.error e)) :
    e = .outOfBounds := by
  generalize h_result : Except.error e = result at h
  induction h with
  | outside h_piece =>
    cases h_result
    exact (piece_eq_error h_piece).2
  | ended => cases h_result
  | @goes_on offset bytes result _ _ _ ih =>
    cases result with
    | error e' =>
      cases h_result
      exact ih rfl
    | ok => cases h_result

/-- Reading in pieces has one outcome only. -/
theorem Gathers.unique {result' : Except Error (List UInt8)} (h : image.Gathers offset result)
    (h' : image.Gathers offset result') : result = result' := by
  cases result with
  | ok run => exact (h'.eq_ok_iff.mpr (h.eq_ok_iff.mp rfl)).symm
  | error e =>
    cases result' with
    | ok run => exact h.eq_ok_iff.mpr (h'.eq_ok_iff.mp rfl)
    | error e' => rw [h.eq_outOfBounds, h'.eq_outOfBounds]

theorem textBytes_succ : image.textBytes (fuel + 1) offset = image.piece offset >>= fun bytes =>
    match bytes.span (· ≠ 0) with
    | (text, _ :: _) => return text
    | (text, []) => return text ++ (← image.textBytes fuel (offset + bytes.length)) := by
  unfold piece
  rw [textBytes]
  cases image.readBytes offset textPiece <;> rfl

/-- **Termination.** With a piece to spare for each byte, the bound on their number does not
show. -/
theorem gathers_textBytes (h : image.data.size - offset < fuel) :
    image.Gathers offset (image.textBytes fuel offset) := by
  induction fuel generalizing offset with
  | zero => exact absurd h (Nat.not_lt_zero _)
  | succ fuel ih =>
    rw [textBytes_succ]
    obtain ⟨-, h_piece⟩ | ⟨bytes, h_piece, h_some, h_rest⟩ := piece_cases image offset
    · rw [h_piece]
      exact .outside h_piece
    rw [h_piece]
    show image.Gathers offset (match bytes.span (· ≠ 0) with
      | (text, _ :: _) => Except.ok text
      | (text, []) => image.textBytes fuel (offset + bytes.length) >>= fun others =>
        Except.ok (text ++ others))
    by_cases h_zero : 0 ∈ bytes
    · obtain ⟨run, rest, rfl, h_run⟩ := List.eq_append_cons_of_mem h_zero
      rw [Bytes.span_of_zero h_run]
      exact .ended h_piece h_run
    · rw [Bytes.span_of_not_mem h_zero]
      have h_length : 0 < bytes.length := List.length_pos_iff.mpr h_some
      have h_left : image.data.size - offset =
          bytes.length + (image.data.size - (offset + bytes.length)) := by
        have h_lengths := congrArg List.length h_rest
        rwa [List.length_append, List.length_drop, List.length_drop] at h_lengths
      exact .goes_on h_piece h_zero (ih (by omega))

/-- What `cString` decodes, if the pieces come to an end. -/
theorem cString_eq_ok_iff {address : Nat} (h : image.offsetOf address = .ok offset)
    {text : String} : image.cString address = .ok text ↔ Bytes.TextAt image.data offset text := by
  have h_gathers : image.Gathers offset (image.textBytes (image.data.size - offset + 1) offset) :=
    gathers_textBytes (Nat.lt_succ_self _)
  unfold cString Bytes.TextAt
  rw [h, ← h_gathers.eq_ok_iff]
  simp only [bind, Except.bind]
  cases image.textBytes (image.data.size - offset + 1) offset with
  | error e => exact iff_of_false (fun h_ok => by cases h_ok) fun h_ok => by cases h_ok
  | ok run =>
    rw [Except.ok.injEq, ← Utf8.decode_eq_ok_iff]
    dsimp only
    cases Utf8.decode run with
    | ok text' => simp only [pure, Except.pure, Except.ok.injEq]
    | error fault => exact iff_of_false (fun h_ok => by cases h_ok) fun h_ok => by cases h_ok

end Image

/-! ### The readers -/

theorem StringHeap.get_eq_ok_iff {heap : StringHeap} {index : Nat} {text : String} :
    heap.get index = .ok text ↔ Bytes.TextAt heap.data index text := by
  rw [Bytes.textAt_iff]
  unfold StringHeap.get
  split
  next h_outside =>
    -- nothing stands behind the end
    refine iff_of_false (fun h => by cases h) fun ⟨run, h_run, _⟩ => ?_
    rw [Bytes.terminated?_eq_some_iff, Bytes.drop_eq_nil h_outside] at h_run
    exact Bytes.not_terminates_nil h_run
  next =>
    cases Bytes.terminated? heap.data index with
    | none => exact iff_of_false (fun h => by cases h) fun ⟨_, h, _⟩ => by cases h
    | some run =>
      simp only [Option.some.injEq, exists_eq_left', Utf8.decode?]
      cases Utf8.decode run with
      | ok text' => simp only [Except.toOption, Except.ok.injEq]
      | error fault => exact iff_of_false (fun h => by cases h) fun h => by cases h

theorem Cursor.exists_text_iff {cursor : Cursor} {text : String} :
    (∃ next, cursor.text = .ok (text, next)) ↔ Bytes.TextAt cursor.data cursor.position text := by
  rw [Bytes.textAt_iff]
  unfold Cursor.text
  cases Bytes.terminated? cursor.data cursor.position with
  | none => exact iff_of_false (fun ⟨_, h⟩ => by cases h) fun ⟨_, h, _⟩ => by cases h
  | some run =>
    simp only [Option.some.injEq, exists_eq_left']
    cases Utf8.decode run with
    | ok text' =>
      simp only [Except.ok.injEq, Prod.mk.injEq, exists_and_left, exists_eq', and_true]
    | error fault => exact iff_of_false (fun ⟨_, h⟩ => by cases h) fun h => by cases h

/-- **The readers of texts agree.** At every place of some bytes, a heap, a cursor and an image read
the text whose UTF-8 stands there in front of a zero byte, and fail if there is none. Reading an
image in pieces comes to an end and has one outcome, whatever number of pieces is allowed for, if
only it exceeds the number of bytes that are left. -/
theorem text_readers_agree (data : ByteArray) (i : Nat) :
    (∀ text, StringHeap.get ⟨data⟩ i = .ok text ↔ Bytes.TextAt data i text) ∧
    (∀ endian text, (∃ next, Cursor.text ⟨data, endian, i⟩ = .ok (text, next)) ↔
      Bytes.TextAt data i text) ∧
    ∀ (image : Image) address, image.data = data → image.offsetOf address = .ok i →
      (∀ text, image.cString address = .ok text ↔ Bytes.TextAt data i text) ∧
      ∃ result, image.Gathers i result ∧ (∀ result', image.Gathers i result' → result' = result) ∧
        ∀ fuel, data.size - i < fuel → image.textBytes fuel i = result := by
  refine ⟨fun text => StringHeap.get_eq_ok_iff, fun endian text => Cursor.exists_text_iff, ?_⟩
  rintro image address rfl h_offset
  have h_gathers : image.Gathers i (image.textBytes (image.data.size - i + 1) i) :=
    Image.gathers_textBytes (Nat.lt_succ_self _)
  exact ⟨fun text => Image.cString_eq_ok_iff h_offset, _, h_gathers,
    fun result' h => h.unique h_gathers,
    fun fuel h => (Image.gathers_textBytes h).unique h_gathers⟩

/-- A text of a whole piece and two more bytes, which end the file together with the zero byte. -/
def Image.named : Image where
  format := .flat
  data := ⟨(List.replicate 64 (97 : UInt8) ++ [0xC3, 0xA9, 0]).toArray⟩
  segments := [⟨0x1000, 0, 67⟩]
  pointerWidth := .bits64
  endian := .little

theorem text_readers_agree_named :
    let text := String.ofList (List.replicate 64 'a' ++ ['é'])
    (Image.named.offsetOf 0x1000).toOption = some 0 ∧
      StringHeap.get ⟨Image.named.data⟩ 0 = .ok text ∧
      (∃ next, Cursor.text ⟨Image.named.data, .little, 0⟩ = .ok (text, next)) ∧
      Image.named.cString 0x1000 = .ok text := by
  have h_text : Bytes.TextAt Image.named.data 0
      (String.ofList (List.replicate 64 'a' ++ ['é'])) := by
    unfold Bytes.TextAt
    rw [String.toByteArray_ofList, List.utf8Encode, List.toList_data_toByteArray]
    exact ⟨[], by decide, by decide⟩
  have h_agree := text_readers_agree Image.named.data 0
  refine ⟨rfl, (h_agree.1 _).mpr h_text, (h_agree.2.1 .little _).mpr h_text, ?_⟩
  exact ((h_agree.2.2 Image.named 0x1000 rfl rfl).1 _).mpr h_text

end GlobalMetadata
