import Reassembly.Version

/-!
# Sessions and their configuration

A session groups the streams of one connection. It fixes how large the segments of its
streams are and which version, if any, their request lines name.
-/

namespace Reassembly

/-- What every stream of a session shares. -/
structure Config where
  /-- Room of each segment, in octets. -/
  segmentCapacity : Nat := 16384
  /-- The version written into request lines; without one the line ends after the path. -/
  requestVersion : Option Version := none
  deriving DecidableEq, Repr

namespace Config

def withSegmentCapacity (config : Config) (capacity : Nat) : Config :=
  { config with segmentCapacity := capacity }

def withRequestVersion (config : Config) (version : Option Version) : Config :=
  { config with requestVersion := version }

end Config

/-- A named group of streams with one configuration. -/
structure Session where
  /-- Identifies the session in reports. -/
  id : Nat := 1
  config : Config := {}
  deriving DecidableEq, Repr

end Reassembly
