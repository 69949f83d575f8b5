import GlobalMetadata.Error

/-!
# Checked versions

Reading a version from text, and insisting that a pair of versions has declared layouts.
-/

namespace GlobalMetadata

/-- The version that a text spells. -/
def Version.parse (text : String) : Except Error Version :=
  match Version.parse? text with
  | some version => .ok version
  | none => .error (.malformed (.versionText text))

/-- Succeeds exactly when both versions of the pair have declared layouts. -/
def VersionPair.ensureSupported (pair : VersionPair) : Except Error Unit :=
  if pair.isSupported then .ok () else .error (.unsupportedVersion pair)

end GlobalMetadata
