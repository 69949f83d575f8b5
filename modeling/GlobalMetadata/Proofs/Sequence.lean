import GlobalMetadata.Proofs.Texts
import Mathlib.Algebra.GroupWithZero.Nat

/-!
# A sequence of calls uses up the front of the data

A `Cursor` is handed on from one call to the next. A reader that works in place keeps one position
and moves it as it goes along, and whatever it takes out of the data has to lie inside: a part that
does not is the end of the program (`InPlace`). The text in front of the next zero byte is looked
for in all that is left, which is taken without a check.

* `Call.follows_inPlace`: as long as the position is not behind the end of the data, a call in place
  gives the answer that it gives with a cursor, and leaves the position of the cursor that is left;
* `Call.perform_eq_ok_iff`: a call has an answer exactly if the bytes at the cursor are those that
  the answer is written as;
* `calls_cover`: no sequence of calls ends the program or leaves the data, and what the answers are
  written as, one behind the other, is the front of the data up to the position.
-/

namespace GlobalMetadata

/-! ### Reading in place -/

/-- Reading at a position that is moved on the way. There is no outcome, neither an answer nor an
error, if a part is taken that does not lie inside the data. -/
abbrev InPlace := ExceptT Error (StateT Nat Option)

namespace InPlace

variable {α β : Type}

/-- The answer of a reader that starts at `position`, and the position that it leaves. -/
def effect (x : InPlace α) (position : Nat) : Option (Except Error α × Nat) :=
  x.run.run position

/-- The end of the program. -/
def abort : InPlace α :=
  ExceptT.mk fun _ => none

/-- The bytes from `start` up to `stop`. -/
def slice (data : ByteArray) (start stop : Nat) : InPlace (List UInt8) :=
  if start ≤ stop ∧ stop ≤ data.size then return (data.extract start stop).data.toList else abort

/-- The next `width` bytes, which the position is moved behind. -/
def take (data : ByteArray) (width : Nat) : InPlace (List UInt8) := do
  let start ← get
  let stop := start + width
  if stop > data.size then
    throw .outOfBounds
  let bytes ← slice data start stop
  set stop
  return bytes

/-- The next integer of a given type. -/
def int (data : ByteArray) (endian : Endian) (type : IntType) : InPlace Int := do
  let bytes ← take data type.width
  return type.interpret (endian.decode bytes)

/-- The next unsigned integer of `width` bytes. -/
def uint (data : ByteArray) (endian : Endian) (width : Nat) : InPlace Nat :=
  if width = 1 ∨ width = 2 ∨ width = 4 ∨ width = 8 then do
    let bytes ← take data width
    return endian.decode bytes
  else throw (.malformed (.integerWidth width))

/-- The text up to the next zero byte; the position is moved behind that byte. -/
def text (data : ByteArray) : InPlace String := do
  let start ← get
  let rest ← slice data start data.size
  match rest.findIdx? (· = 0) with
  | none => throw .outOfBounds
  | some length =>
    let bytes ← slice data start (start + length)
    match Utf8.decode bytes with
    | .error fault => throw (.malformed (.textAtOffset start fault))
    | .ok text =>
      set (start + length + 1)
      return text

variable {data : ByteArray} {endian : Endian} {position : Nat}

@[simp] theorem effect_pure (a : α) : effect (pure a) position = some (.ok a, position) := rfl

@[simp] theorem effect_throw (e : Error) :
    effect (throw e : InPlace α) position = some (.error e, position) := rfl

@[simp] theorem effect_get : effect get position = some (.ok position, position) := rfl

@[simp] theorem effect_set (next : Nat) : effect (set next) position = some (.ok ⟨⟩, next) := rfl

/-- What follows a reader starts where it left the position, and is left out if it failed. -/
theorem effect_bind (x : InPlace α) (f : α → InPlace β) :
    effect (x >>= f) position = (effect x position).bind fun
      | (.ok a, next) => effect (f a) next
      | (.error e, next) => some (.error e, next) := by
  show (x.run.run position).bind _ = _
  unfold effect
  congr 1
  funext ⟨answer, next⟩
  cases answer <;> rfl

theorem effect_slice {start stop : Nat} (h_start : start ≤ stop) (h_stop : stop ≤ data.size) :
    effect (slice data start stop) position =
      some (.ok ((data.data.toList.drop start).take (stop - start)), position) := by
  rw [slice, if_pos ⟨h_start, h_stop⟩, effect_pure, ByteArray.data_extract, Array.toList_extract,
    List.extract_eq_take_drop]

theorem effect_take_of_inside {width : Nat} (h : position + width ≤ data.size) :
    effect (take data width) position =
      some (.ok ((data.data.toList.drop position).take width), position + width) := by
  simp only [take, effect_bind, effect_get, Option.bind_some, Nat.not_lt.mpr h, gt_iff_lt, if_false,
    effect_slice (Nat.le_add_right position width) h, effect_set, effect_pure,
    Nat.add_sub_cancel_left]

theorem effect_take_of_outside {width : Nat} (h : ¬ position + width ≤ data.size) :
    effect (take data width) position = some (.error .outOfBounds, position) := by
  simp only [take, effect_bind, effect_get, Option.bind_some, Nat.not_le.mp h, gt_iff_lt, if_true,
    effect_throw]

end InPlace

/-! ### Calls -/

/-- The lowest value of an integer type. -/
def IntType.lowest (type : IntType) : Int :=
  if type.isSigned then -(type.range / 2 : Nat) else 0

/-- A call for what comes next. -/
inductive Call
  /-- The integer of a given type. -/
  | int (type : IntType)
  /-- The unsigned integer of so many bytes. -/
  | uint (width : Nat)
  /-- The text up to the next zero byte. -/
  | text
  deriving DecidableEq, Repr

namespace Call

/-- What is answered to a call. -/
abbrev Answer : Call → Type
  | .int _ => Int
  | .uint _ => Nat
  | .text => String

/-- The call, made in place. -/
def inPlace (data : ByteArray) (endian : Endian) : (call : Call) → InPlace call.Answer
  | .int type => InPlace.int data endian type
  | .uint width => InPlace.uint data endian width
  | .text => InPlace.text data

/-- The call, made with a cursor. -/
def perform (cursor : Cursor) : (call : Call) → Except Error (call.Answer × Cursor)
  | .int type => cursor.int type
  | .uint width => cursor.uint width
  | .text => cursor.text

/-- The answers that there are to a call. -/
def Admits : (call : Call) → call.Answer → Prop
  | .int type, value => type.lowest ≤ value ∧ value < type.lowest + type.range
  | .uint width, value => (width = 1 ∨ width = 2 ∨ width = 4 ∨ width = 8) ∧ value < 256 ^ width
  | .text, s => 0 ∉ s.toByteArray.data.toList

/-- The number of bytes that an answer stands for. -/
def span : (call : Call) → call.Answer → Nat
  | .int type, _ => type.width
  | .uint width, _ => width
  | .text, s => s.utf8ByteSize + 1

/-- The bytes that an answer is written as; a text ends with a zero byte. -/
def written (endian : Endian) : (call : Call) → call.Answer → List UInt8
  | .int type, value => endian.encode type.width (value % type.range).toNat
  | .uint width, value => endian.encode width value
  | .text, s => s.toByteArray.data.toList ++ [0]

/-- The call can have this answer, and the bytes at a place are those that it is written as. -/
def Stands (data : ByteArray) (endian : Endian) (position : Nat) (call : Call)
    (answer : call.Answer) : Prop :=
  call.Admits answer ∧
    Bytes.slice? data position (call.span answer) = some (call.written endian answer)

end Call

/-! ### What stands at a place -/

namespace IntType

theorem range_eq (type : IntType) : type.range = 256 ^ type.width := by
  cases type <;> rfl

theorem width_cases (type : IntType) :
    type.width = 1 ∨ type.width = 2 ∨ type.width = 4 ∨ type.width = 8 := by
  cases type <;> decide

/-- Every value of a type is that of one word. -/
theorem interpret_eq_iff {type : IntType} {word : Nat} {value : Int} (h : word < type.range) :
    type.interpret word = value ↔
      (type.lowest ≤ value ∧ value < type.lowest + type.range) ∧
        word = (value % type.range).toNat := by
  -- the size of each type is a number, and what is left is arithmetic with it
  cases type <;>
    simp only [interpret, lowest, isSigned, range, UInt8.size, UInt16.size, UInt32.size,
      UInt64.size, Int.bmod_def, if_true, if_false, Bool.false_eq_true, Nat.reduceDiv] at h ⊢ <;>
    omega

end IntType

namespace Bytes

variable {data : ByteArray} {endian : Endian} {width offset n : Nat}

theorem word?_eq_some_iff : word? data endian width offset = some n ↔
    n < 256 ^ width ∧ slice? data offset width = some (endian.encode width n) := by
  unfold word?
  constructor
  · intro h
    obtain ⟨bytes, h_bytes, rfl⟩ := Option.map_eq_some_iff.mp h
    have h_length : bytes.length = width := length_of_slice?_eq_some h_bytes
    subst h_length
    rw [Endian.encode_decode]
    exact ⟨Endian.decode_lt endian bytes, h_bytes⟩
  · rintro ⟨h_n, h_bytes⟩
    rw [h_bytes, Option.map_some, Endian.decode_encode endian h_n]

theorem readUInt_eq_ok_iff : readUInt data endian width offset = .ok n ↔
    (width = 1 ∨ width = 2 ∨ width = 4 ∨ width = 8) ∧ word? data endian width offset = some n := by
  unfold readUInt
  split
  next h_width =>
    cases word? data endian width offset <;> simp [h_width]
  next h_width => simp [h_width]

theorem readUInt_of_inside (h_width : width = 1 ∨ width = 2 ∨ width = 4 ∨ width = 8)
    (h_inside : offset + width ≤ data.size) : readUInt data endian width offset =
      .ok (endian.decode ((data.data.toList.drop offset).take width)) := by
  rw [readUInt, if_pos h_width, word?, slice?_eq_some h_inside]
  rfl

theorem readUInt_of_outside (h_width : width = 1 ∨ width = 2 ∨ width = 4 ∨ width = 8)
    (h_outside : ¬ offset + width ≤ data.size) :
    readUInt data endian width offset = .error .outOfBounds := by
  rw [readUInt, if_pos h_width, word?, slice?, part?, if_neg h_outside]
  rfl

variable {bytes run : List UInt8}

/-- The run in front of the first zero byte is as long as the number of bytes to pass over. -/
theorem findIdx?_of_terminates (h : Terminates bytes run) :
    bytes.findIdx? (· = 0) = some run.length := by
  obtain ⟨rest, rfl, h_run⟩ := h
  have h_none : run.findIdx? (· = 0) = none :=
    List.findIdx?_eq_none_iff.mpr fun _ h_byte =>
      decide_eq_false (ne_of_mem_of_not_mem h_byte h_run)
  rw [List.findIdx?_append, h_none, List.findIdx?_cons, if_pos (decide_eq_true rfl)]
  exact congrArg some (Nat.zero_add run.length)

theorem findIdx?_of_not_terminates (h : ∀ run, ¬ Terminates bytes run) :
    bytes.findIdx? (· = 0) = none := by
  rw [List.findIdx?_eq_none_iff]
  intro byte h_byte
  refine decide_eq_false fun h_zero => ?_
  subst h_zero
  obtain ⟨run, rest, h_bytes, h_run⟩ := List.eq_append_cons_of_mem h_byte
  exact h run ⟨rest, h_bytes, h_run⟩

/-- A run ends with the first zero byte if it has none and there is one behind it. -/
theorem terminates_iff_slice? : Terminates (data.data.toList.drop offset) run ↔
    0 ∉ run ∧ slice? data offset (run.length + 1) = some (run ++ [0]) := by
  have h_length : (data.data.toList.drop offset).length = data.size - offset := List.length_drop
  constructor
  · rintro ⟨rest, h_bytes, h_run⟩
    have h_inside : offset + (run.length + 1) ≤ data.size := by
      -- the zero byte is one of those that are left
      rw [h_bytes, List.length_append, List.length_cons] at h_length
      omega
    refine ⟨h_run, ?_⟩
    rw [slice?_eq_some h_inside, h_bytes, List.append_cons]
    exact congrArg some (List.take_left' List.length_append)
  · rintro ⟨h_run, h_slice⟩
    rw [slice?_eq_some (le_size_of_slice? h_slice), Option.some.injEq] at h_slice
    refine ⟨(data.data.toList.drop offset).drop (run.length + 1), ?_, h_run⟩
    rw [List.append_cons, ← h_slice, List.take_append_drop]

end Bytes

/-! ### One call -/

namespace Cursor

variable {α : Type} {cursor : Cursor}

/-- What a call comes to: its answer, and the cursor for the next call. A call that fails gives no
cursor back, and the one that it was made with goes on. -/
def settle (cursor : Cursor) : Except Error (α × Cursor) → Except Error α × Cursor
  | .ok (answer, moved) => (.ok answer, moved)
  | .error e => (.error e, cursor)

/-- A reader in place does what a call with the cursor does. -/
def Follows (cursor : Cursor) (x : InPlace α) (result : Except Error (α × Cursor)) : Prop :=
  x.effect cursor.position = some (Prod.map id Cursor.position (cursor.settle result))

theorem follows_uint (width : Nat) :
    cursor.Follows (InPlace.uint cursor.data cursor.endian width) (cursor.uint width) := by
  unfold Follows
  -- the width is looked at first, and a wrong one is refused before anything is taken
  by_cases h_width : width = 1 ∨ width = 2 ∨ width = 4 ∨ width = 8
  · by_cases h_inside : cursor.position + width ≤ cursor.data.size
    · simp only [InPlace.uint, if_pos h_width, InPlace.effect_bind,
        InPlace.effect_take_of_inside h_inside, Option.bind_some, InPlace.effect_pure, uint,
        Bytes.readUInt_of_inside h_width h_inside]
      rfl
    · simp only [InPlace.uint, if_pos h_width, InPlace.effect_bind,
        InPlace.effect_take_of_outside h_inside, Option.bind_some, uint,
        Bytes.readUInt_of_outside h_width h_inside]
      rfl
  · rw [InPlace.uint, if_neg h_width, uint, Bytes.readUInt, if_neg h_width]
    rfl

theorem follows_int (type : IntType) :
    cursor.Follows (InPlace.int cursor.data cursor.endian type) (cursor.int type) := by
  unfold Follows
  by_cases h_inside : cursor.position + type.width ≤ cursor.data.size
  · simp only [InPlace.int, InPlace.effect_bind, InPlace.effect_take_of_inside h_inside,
      Option.bind_some, InPlace.effect_pure, int, Bytes.readInt,
      Bytes.readUInt_of_inside type.width_cases h_inside]
    rfl
  · simp only [InPlace.int, InPlace.effect_bind, InPlace.effect_take_of_outside h_inside,
      Option.bind_some, int, Bytes.readInt, Bytes.readUInt_of_outside type.width_cases h_inside]
    rfl

/-- All that is left is taken without a check, so that the cursor must not be behind the end of the
data. -/
theorem follows_text (h : cursor.position ≤ cursor.data.size) :
    cursor.Follows (InPlace.text cursor.data) cursor.text := by
  have h_length : cursor.data.data.toList.length = cursor.data.size := Array.length_toList
  have h_rest : (cursor.data.data.toList.drop cursor.position).take
      (cursor.data.size - cursor.position) = cursor.data.data.toList.drop cursor.position := by
    rw [← h_length, ← List.length_drop, List.take_length]
  unfold Follows
  -- this is where the invariant is needed: the rest of the data exists
  rw [InPlace.text, InPlace.effect_bind, InPlace.effect_get, Option.bind_some]
  dsimp only
  rw [InPlace.effect_bind, InPlace.effect_slice h (Nat.le_refl _), h_rest, Option.bind_some, text]
  dsimp only
  cases h_run : Bytes.terminated? cursor.data cursor.position with
  | none =>
    have h_none : ∀ run, ¬ Bytes.Terminates (cursor.data.data.toList.drop cursor.position) run := by
      intro run h_terminates
      rw [Bytes.terminated?_eq_some_iff.mpr h_terminates] at h_run
      cases h_run
    rw [Bytes.findIdx?_of_not_terminates h_none]
    rfl
  | some run =>
    have h_terminates := Bytes.terminated?_eq_some_iff.mp h_run
    obtain ⟨rest, h_bytes, -⟩ := id h_terminates
    have h_inside : cursor.position + run.length ≤ cursor.data.size := by
      have h_left := congrArg List.length h_bytes
      rw [List.length_drop, h_length, List.length_append, List.length_cons] at h_left
      omega
    have h_taken : (cursor.data.data.toList.drop cursor.position).take run.length = run := by
      rw [h_bytes, List.take_left]
    -- both readers have the same run, and what becomes of it does not depend on them
    rw [Bytes.findIdx?_of_terminates h_terminates]
    dsimp only
    rw [InPlace.effect_bind, InPlace.effect_slice (Nat.le_add_right _ _) h_inside,
      Nat.add_sub_cancel_left, h_taken, Option.bind_some]
    dsimp only
    cases Utf8.decode run <;> rfl

variable {moved : Cursor}

theorem uint_eq_ok_iff {width n : Nat} : cursor.uint width = .ok (n, moved) ↔
    (Call.uint width).Stands cursor.data cursor.endian cursor.position n ∧
      moved = cursor.advance width := by
  rw [uint, except_map_eq_ok_iff]
  simp only [Bytes.readUInt_eq_ok_iff, Bytes.word?_eq_some_iff]
  constructor
  · rintro ⟨n', ⟨h_width, h_n, h_slice⟩, h_eq⟩
    cases h_eq
    exact ⟨⟨⟨h_width, h_n⟩, h_slice⟩, rfl⟩
  · rintro ⟨⟨⟨h_width, h_n⟩, h_slice⟩, rfl⟩
    exact ⟨n, ⟨h_width, h_n, h_slice⟩, rfl⟩

theorem int_eq_ok_iff {type : IntType} {value : Int} : cursor.int type = .ok (value, moved) ↔
    (Call.int type).Stands cursor.data cursor.endian cursor.position value ∧
      moved = cursor.advance type.width := by
  rw [int, except_map_eq_ok_iff, Bytes.readInt]
  simp only [except_map_eq_ok_iff, Bytes.readUInt_eq_ok_iff, Bytes.word?_eq_some_iff,
    ← type.range_eq]
  constructor
  · rintro ⟨_, ⟨word, ⟨-, h_word, h_slice⟩, rfl⟩, h_eq⟩
    cases h_eq
    obtain ⟨h_value, h_same⟩ := (IntType.interpret_eq_iff h_word).mp rfl
    rw [h_same] at h_slice
    exact ⟨⟨h_value, h_slice⟩, rfl⟩
  · -- the word that the bytes stand for is the value, wrapped around
    rintro ⟨⟨h_value, h_slice⟩, rfl⟩
    have h_word : (value % type.range).toNat < type.range := by
      have h_pos : 0 < type.range := by cases type <;> decide
      have h_lt := Int.emod_lt_of_pos value (Int.natCast_pos.mpr h_pos)
      omega
    exact ⟨value, ⟨_, ⟨type.width_cases, h_word, h_slice⟩,
      (IntType.interpret_eq_iff h_word).mpr ⟨h_value, rfl⟩⟩, rfl⟩

theorem text_eq_ok_iff {s : String} : cursor.text = .ok (s, moved) ↔
    Call.text.Stands cursor.data cursor.endian cursor.position s ∧
      moved = cursor.advance (s.utf8ByteSize + 1) := by
  have h_stands : Call.text.Stands cursor.data cursor.endian cursor.position s ↔
      Bytes.TextAt cursor.data cursor.position s := Bytes.terminates_iff_slice?.symm
  rw [h_stands, Bytes.textAt_iff, text]
  cases Bytes.terminated? cursor.data cursor.position with
  | none => exact iff_of_false (fun h => by cases h) fun ⟨⟨_, h, _⟩, _⟩ => by cases h
  | some run =>
    simp only [Option.some.injEq, exists_eq_left']
    cases h_text : Utf8.decode run with
    | error fault => exact iff_of_false (fun h => by cases h) fun ⟨h, _⟩ => by cases h
    | ok s' =>
      have h_length : run.length = s'.utf8ByteSize := by
        rw [Utf8.decode_eq_ok_iff.mp h_text]
        rfl
      rw [h_length]
      constructor
      · intro h
        cases h
        exact ⟨rfl, rfl⟩
      · rintro ⟨h, rfl⟩
        cases h
        rfl

end Cursor

namespace Call

variable {cursor : Cursor} (call : Call)

/-- **In place.** A call in place does what it does with a cursor that is not behind the end of the
data. -/
theorem follows_inPlace (h : cursor.position ≤ cursor.data.size) :
    cursor.Follows (call.inPlace cursor.data cursor.endian) (call.perform cursor) := by
  cases call with
  | int type => exact Cursor.follows_int type
  | uint width => exact Cursor.follows_uint width
  | text => exact Cursor.follows_text h

variable {call} {answer : call.Answer} {moved : Cursor}

/-- **Answers.** A call is answered by what stands at the cursor, which moves behind it. -/
theorem perform_eq_ok_iff : call.perform cursor = .ok (answer, moved) ↔
    call.Stands cursor.data cursor.endian cursor.position answer ∧
      moved = cursor.advance (call.span answer) := by
  cases call with
  | int type => exact Cursor.int_eq_ok_iff
  | uint width => exact Cursor.uint_eq_ok_iff
  | text => exact Cursor.text_eq_ok_iff

end Call

/-! ### A sequence of calls -/

/-- A call, and what came of it. -/
structure Reply where
  /-- The call. -/
  call : Call
  /-- Its answer, or the error that it failed with. -/
  answer : Except Error call.Answer

namespace Reply

/-- The number of bytes that a reply stands for. An error stands for none. -/
def span : Reply → Nat
  | ⟨call, .ok answer⟩ => call.span answer
  | ⟨_, .error _⟩ => 0

/-- The bytes that a reply is written as. -/
def written (endian : Endian) : Reply → List UInt8
  | ⟨call, .ok answer⟩ => call.written endian answer
  | ⟨_, .error _⟩ => []

end Reply

/-- The replies to calls in place. A call is made whether or not the one before it failed. -/
def InPlace.replies (data : ByteArray) (endian : Endian) :
    List Call → StateT Nat Option (List Reply)
  | [] => return []
  | call :: calls => do
    let answer ← (call.inPlace data endian).run
    let rest ← replies data endian calls
    return ⟨call, answer⟩ :: rest

theorem InPlace.run_replies_cons {data : ByteArray} {endian : Endian} {call : Call}
    {calls : List Call} {position next last : Nat} {answer : Except Error call.Answer}
    {rest : List Reply} (h_call : (call.inPlace data endian).effect position = some (answer, next))
    (h_rest : (replies data endian calls).run next = some (rest, last)) :
    (replies data endian (call :: calls)).run position = some (⟨call, answer⟩ :: rest, last) := by
  show ((call.inPlace data endian).effect position).bind _ = _
  rw [h_call]
  show ((replies data endian calls).run next).bind _ = _
  rw [h_rest]
  rfl

namespace Cursor

/-- The replies to calls with a cursor, and the cursor that is left. -/
def replies (cursor : Cursor) : List Call → List Reply × Cursor
  | [] => ([], cursor)
  | call :: calls =>
    let (answer, next) := cursor.settle (call.perform cursor)
    let (rest, last) := next.replies calls
    (⟨call, answer⟩ :: rest, last)

variable {cursor : Cursor}

/-- **One step.** Whatever comes of a call, what it is written as stands in front of the cursor that
is left, which is not behind the end of the data. -/
theorem exists_settle (h : cursor.position ≤ cursor.data.size) (call : Call) :
    ∃ answer, cursor.settle (call.perform cursor) =
        (answer, cursor.advance (Reply.mk call answer).span) ∧
      cursor.position + (Reply.mk call answer).span ≤ cursor.data.size ∧
      cursor.data.data.toList.take cursor.position ++
          (Reply.mk call answer).written cursor.endian =
        cursor.data.data.toList.take (cursor.position + (Reply.mk call answer).span) := by
  cases h_perform : call.perform cursor with
  | error e => exact ⟨.error e, rfl, h, List.append_nil _⟩
  | ok result =>
    obtain ⟨answer, moved⟩ := result
    obtain ⟨⟨-, h_slice⟩, rfl⟩ := Call.perform_eq_ok_iff.mp h_perform
    have h_inside := Bytes.le_size_of_slice? h_slice
    rw [Bytes.slice?_eq_some h_inside, Option.some.injEq] at h_slice
    refine ⟨.ok answer, rfl, h_inside, ?_⟩
    rw [Reply.written, Reply.span, List.take_add, h_slice]

/-- **A run.** The calls, made in place and made with the cursor, have the same replies, and what
these are written as is the part of the data that the cursor moves over. -/
theorem exists_replies (h : cursor.position ≤ cursor.data.size) (calls : List Call) :
    ∃ replies : List Reply, replies.map Reply.call = calls ∧
      cursor.replies calls = (replies, cursor.advance (replies.map Reply.span).sum) ∧
      (InPlace.replies cursor.data cursor.endian calls).run cursor.position =
        some (replies, cursor.position + (replies.map Reply.span).sum) ∧
      cursor.position + (replies.map Reply.span).sum ≤ cursor.data.size ∧
      cursor.data.data.toList.take cursor.position ++
          replies.flatMap (Reply.written cursor.endian) =
        cursor.data.data.toList.take (cursor.position + (replies.map Reply.span).sum) := by
  induction calls generalizing cursor with
  | nil => exact ⟨[], rfl, rfl, rfl, h, List.append_nil _⟩
  | cons call calls ih =>
    obtain ⟨answer, h_settle, h_inside, h_written⟩ := exists_settle h call
    have h_follows := call.follows_inPlace h
    rw [Follows, h_settle] at h_follows
    -- the other calls start at the cursor that the first one leaves
    have h_next : (cursor.advance (Reply.mk call answer).span).position ≤ cursor.data.size :=
      h_inside
    obtain ⟨rest, h_calls, h_rest, h_run, h_last, h_covered⟩ := ih h_next
    have h_sum : cursor.position + ((⟨call, answer⟩ :: rest).map Reply.span).sum =
        cursor.position + (Reply.mk call answer).span + (rest.map Reply.span).sum := by
      rw [List.map_cons, List.sum_cons, Nat.add_assoc]
    refine ⟨⟨call, answer⟩ :: rest, congrArg (call :: ·) h_calls, ?_, ?_, ?_, ?_⟩
    · rw [replies, h_settle]
      dsimp only
      rw [h_rest, advance, advance, advance, h_sum]
    · rw [h_sum]
      exact InPlace.run_replies_cons h_follows h_run
    · rw [h_sum]
      exact h_last
    · rw [h_sum, List.flatMap_cons, ← List.append_assoc, h_written]
      exact h_covered

end Cursor

/-- **Calls use up the front of the data.** No sequence of calls from the first byte on ends the
program. In place and with a cursor it has the same replies and comes to the same position, inside
the data or at its end. What the replies are written as, one behind the other, are the bytes in
front of that position. The next call is answered by what stands there and moves the position behind
it; if nothing stands there that the call asks for, it fails and the position stays. -/
theorem calls_cover (data : ByteArray) (endian : Endian) (calls : List Call) :
    ∃ (replies : List Reply) (position : Nat),
      (InPlace.replies data endian calls).run 0 = some (replies, position) ∧
      (Cursor.start data endian).replies calls = (replies, ⟨data, endian, position⟩) ∧
      replies.map Reply.call = calls ∧ position = (replies.map Reply.span).sum ∧
      position ≤ data.size ∧
      replies.flatMap (Reply.written endian) = data.data.toList.take position ∧
      ∀ call : Call,
        (∀ answer, call.Stands data endian position answer →
          (call.inPlace data endian).effect position =
            some (.ok answer, position + call.span answer)) ∧
        ((¬ ∃ answer, call.Stands data endian position answer) →
          ∃ e, (call.inPlace data endian).effect position = some (.error e, position)) := by
  obtain ⟨replies, h_calls, h_replies, h_run, h_inside, h_covered⟩ :=
    (Cursor.start data endian).exists_replies (Nat.zero_le _) calls
  simp only [Cursor.start, Nat.zero_add, List.take_zero, List.nil_append]
    at h_run h_inside h_covered
  rw [Cursor.advance, Cursor.start, Nat.zero_add] at h_replies
  refine ⟨replies, _, h_run, h_replies, h_calls, rfl, h_inside, h_covered, fun call => ?_⟩
  -- one more call, with the cursor that is left
  generalize (replies.map Reply.span).sum = position at h_inside
  have h_follows : (Cursor.mk data endian position).Follows _ _ := call.follows_inPlace h_inside
  rw [Cursor.Follows] at h_follows
  constructor
  · intro answer h_stands
    rw [Call.perform_eq_ok_iff.mpr ⟨h_stands, rfl⟩] at h_follows
    exact h_follows
  · intro h_none
    cases h_perform : call.perform ⟨data, endian, position⟩ with
    | error e =>
      rw [h_perform] at h_follows
      exact ⟨e, h_follows⟩
    | ok result => exact absurd ⟨result.1, (Call.perform_eq_ok_iff.mp h_perform).1⟩ h_none

example :
    ((Cursor.start ⟨#[1, 0, 104, 105, 0, 7]⟩ .little).replies
      [.uint 3, .uint 2, .text, .int .i16, .text]).2.position = 5 := by
  decide

end GlobalMetadata
