import GlobalMetadata.Version

/-!
# Configuration

What a caller may decide about decoding and resolution. `Config.minimal` reaches what member
signatures mention, to a shallow generic depth; `Config.comprehensive` also resolves every
instantiation that the registration tables list.
-/

namespace GlobalMetadata

/-- Options for decoding and resolution. -/
structure Config where
  /-- The version of the blob, instead of the one found in it. -/
  metadataVersion : Option Version
  /-- The version of the registration tables, instead of that of the blob. -/
  registrationVersion : Option Version
  /-- Whether the order of resolution may be left open. -/
  parallel : Bool
  /-- The deepest nesting of generic arguments that is expanded. -/
  maxGenericDepth : Nat
  /-- Whether all instantiations of the registration tables are resolved. -/
  materialize : Bool
  deriving DecidableEq, Repr

namespace Config

/-- Everything that member signatures reach. -/
def standard : Config :=
  ⟨none, none, true, 8, false⟩

/-- What member signatures reach, to a shallow depth and in a fixed order. -/
def minimal : Config :=
  ⟨none, none, false, 4, false⟩

/-- Everything that member signatures or the registration tables reach. -/
def comprehensive : Config :=
  ⟨none, none, true, 16, true⟩

/-- The same options with both versions given. -/
def withVersions (config : Config) (metadata registration : Version) : Config :=
  { config with metadataVersion := some metadata, registrationVersion := some registration }

end Config

end GlobalMetadata
