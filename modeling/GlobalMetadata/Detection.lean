import GlobalMetadata.Config
import GlobalMetadata.Metadata

/-!
# Detecting the version

The integer version of a blob is its version, with one exception: several layouts carry the integer
24. From the third of them on the header is shorter, so that the table of string literals, which
follows the header, starts earlier. The first two differ in the rows of the image table: read as the
first, the rows of the second are out of step, and then the token of some module is not 1.
-/

namespace GlobalMetadata

namespace Version

/-- The integer that several layouts share. -/
def shared : Nat :=
  24

/-- The header of 24.2 ends here, and its string literals start. -/
def headerSize24_2 : Nat :=
  264

/-- The token that a module has by itself. -/
def moduleToken : Nat :=
  1

/-- The version of a blob with the integer version 24. -/
def detect24 (data : ByteArray) : Except Error Version := do
  let literals ← Bytes.readUInt data .little 4 8
  if literals = headerSize24_2 then
    return ⟨24, 2⟩
  let pair := VersionPair.uniform ⟨24, 0⟩
  let header ← Header.read data pair
  let images ← readTable ImageDefinition data .images (← header.locate .images data.size) pair
  return if images.any (·.token ≠ some moduleToken) then ⟨24, 1⟩ else ⟨24, 0⟩

/-- The version of a blob with a given integer version. -/
def ofInteger (data : ByteArray) (version : Nat) : Except Error Version :=
  if UInt16.size ≤ version then .error (.malformed (.integerVersion version))
  else if version = shared then detect24 data
  else .ok ⟨UInt16.ofNat version, 0⟩

end Version

namespace VersionPair

/-- **Detection.** The pair of versions of a blob. A configured version goes before the detected
one; without one, the registration tables have the version of the blob. -/
def detect (data : ByteArray) (config : Config) : Except Error VersionPair := do
  let version ← Header.integerVersion data
  let metadata ←
    match config.metadataVersion with
    | some forced => pure forced
    | none => Version.ofInteger data version
  let pair : VersionPair := ⟨metadata, config.registrationVersion.getD metadata⟩
  pair.ensureSupported
  return pair

end VersionPair

/-- The tables of a blob and of its native image, for the versions that are detected. -/
def Metadata.load (data : ByteArray) (source : RegistrationSource) (config : Config) :
    Except Error Metadata := do
  Metadata.decode data source (← VersionPair.detect data config)

end GlobalMetadata
