import GlobalMetadata.Row.Value

/-!
# Names and literals

Names of types, members and modules stand in one heap of texts, each with a zero byte at its end,
and are referred to by their place in it. The string literals of the program have no such end: a
table gives the length and the place of each.
-/

namespace GlobalMetadata

/-- The heap of names. -/
structure StringHeap where
  data : ByteArray

/-- The name that starts at `index`. -/
def StringHeap.get (heap : StringHeap) (index : Nat) : Except Error String :=
  if heap.data.size ≤ index then .error .outOfBounds
  else
    match Bytes.terminated? heap.data index with
    | none => .error (.malformed (.nameUnterminated index))
    | some bytes =>
      match Utf8.decode? bytes with
      | some name => .ok name
      | none => .error (.malformed (.nameEncoding index))

/-- The string literals of the program. -/
structure LiteralTable where
  /-- The length and the place of each literal. -/
  rows : Array StringLiteral
  data : ByteArray

namespace LiteralTable

/-- The bytes of a literal. -/
def bytes (literals : LiteralTable) (index : Nat) : Except Error (List UInt8) :=
  match literals.rows[index]? with
  | none => .error .outOfBounds
  | some row =>
    match Bytes.slice? literals.data row.dataIndex row.length with
    | some bytes => .ok bytes
    | none => .error .outOfBounds

/-- The text of a literal. -/
def get (literals : LiteralTable) (index : Nat) : Except Error String := do
  match Utf8.decode? (← literals.bytes index) with
  | some text => return text
  | none => throw (.malformed (.literalEncoding index))

end LiteralTable

end GlobalMetadata
