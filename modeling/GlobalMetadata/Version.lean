import GlobalMetadata.Text.Blank
import GlobalMetadata.Text.Numeral

/-!
# Format revisions

The metadata blob carries an integer revision, but several incompatible layouts were shipped under
one integer. A `Version` therefore has a minor half that tells those layouts apart: `24.5` comes
between `24` and `27`.

The blob and the registration tables of the native image evolved independently. Every decision
about a layout is made against a `VersionPair`, one version on each `Axis`.

* `Version.text` writes a version, leaving out a minor half of zero, and `Version.parse?` reads one;
* `Version.supported` lists the revisions with a declared layout, in ascending order.
-/

namespace GlobalMetadata

/-- A format revision such as `24.1`. -/
structure Version where
  /-- The integer that the blob's header carries. -/
  major : UInt16
  /-- Tells the layouts apart that share one integer. -/
  minor : UInt16
  deriving DecidableEq, Repr, Inhabited

namespace Version

/-- Versions are ordered by their major and then by their minor half. -/
instance : LE Version where
  le a b := a.major < b.major ∨ (a.major = b.major ∧ a.minor ≤ b.minor)

instance (a b : Version) : Decidable (a ≤ b) :=
  inferInstanceAs (Decidable (a.major < b.major ∨ (a.major = b.major ∧ a.minor ≤ b.minor)))

/-- The comparison that belongs to the order. -/
def compare (a b : Version) : Ordering :=
  if a = b then .eq else if a ≤ b then .lt else .gt

/-- The written form: both halves, or the major one alone when the minor one is zero. -/
def text (v : Version) : String :=
  if v.minor = 0 then v.major.toNat.repr else v.major.toNat.repr ++ "." ++ v.minor.toNat.repr

instance : ToString Version where
  toString := text

/-- One half of a version: a numeral of at most 16 bits. -/
def parseHalf? (text : List Char) : Option UInt16 :=
  (Numeral.bounded? UInt16.size text).map UInt16.ofNat

/-- The halves of a version's text, split at the first dot; without a dot the minor half is zero. -/
def halves (text : List Char) : List Char × List Char :=
  match text.span (· ≠ '.') with
  | (major, _ :: minor) => (major, minor)
  | (major, []) => (major, ['0'])

/-- **Reading a version.** Blanks around the text are ignored; both halves have to be numerals. -/
def parse? (text : String) : Option Version :=
  let (major, minor) := halves (Blank.strip text.toList)
  match parseHalf? major, parseHalf? minor with
  | some major, some minor => some ⟨major, minor⟩
  | _, _ => none

/-- Every revision with a declared layout, in ascending order. -/
def supported : List Version :=
  [⟨16, 0⟩, ⟨19, 0⟩, ⟨20, 0⟩, ⟨21, 0⟩, ⟨22, 0⟩, ⟨23, 0⟩, ⟨24, 0⟩, ⟨24, 1⟩, ⟨24, 2⟩, ⟨24, 3⟩,
    ⟨24, 4⟩, ⟨24, 5⟩, ⟨27, 0⟩, ⟨27, 1⟩, ⟨27, 2⟩, ⟨29, 0⟩, ⟨29, 1⟩, ⟨31, 0⟩]

/-- Whether the version has a declared layout. -/
def isSupported (v : Version) : Bool :=
  supported.contains v

/-- The versions in ascending order; equal ones keep their places. -/
def sort (versions : List Version) : List Version :=
  versions.mergeSort (· ≤ ·)

end Version

/-- The two halves of the format that evolved independently. -/
inductive Axis
  /-- The structures inside the metadata blob. -/
  | metadata
  /-- The structures inside the native image. -/
  | registration
  deriving DecidableEq, Repr

/-- The version of the metadata blob and the version of the registration tables. -/
structure VersionPair where
  /-- The revision of the blob. -/
  metadata : Version
  /-- The revision of the registration tables. -/
  registration : Version
  deriving DecidableEq, Repr, Inhabited

namespace VersionPair

/-- The pair whose halves are both `v`. -/
def uniform (v : Version) : VersionPair :=
  ⟨v, v⟩

/-- The version on one axis. -/
def on (pair : VersionPair) : Axis → Version
  | .metadata => pair.metadata
  | .registration => pair.registration

/-- Whether both halves are the same version. -/
def isUniform (pair : VersionPair) : Bool :=
  pair.metadata == pair.registration

/-- Whether both halves have a declared layout. -/
def isSupported (pair : VersionPair) : Bool :=
  pair.metadata.isSupported && pair.registration.isSupported

/-- The written form: the two versions around a slash. -/
def text (pair : VersionPair) : String :=
  pair.metadata.text ++ "/" ++ pair.registration.text

end VersionPair

end GlobalMetadata
