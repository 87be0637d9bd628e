import NamedRelay.Address.Basic

/-!
# Configuration
-/

namespace NamedRelay

/-- How repeated interests are recognised. -/
inductive NonceCheck where
  /-- By the last `capacity` nonces seen. -/
  | history (capacity : Nat)
  /-- By the nonces of the interests now pending. -/
  | pendingTable
deriving DecidableEq, Repr

structure InterfaceConfig where
  address : Address
  reflect : Bool := false
  forwardAll : Bool := false
deriving DecidableEq, Repr

/-- Timeouts are in milliseconds. No cached entries at most means no limit. -/
structure Config where
  maxCacheEntries : Nat := 0
  contentTimeout : UInt64 := 300000
  faceTimeout : UInt64 := 30000
  interestTimeout : UInt64 := 10000
  maxRetransmits : UInt32 := 7
  nonceCheck : NonceCheck := .history 256
  broadcastFallback : Bool := false
  maxInterfaces : Nat := 10
  interfaces : List InterfaceConfig := []
deriving DecidableEq, Repr

instance : Inhabited Config := ⟨{}⟩

inductive ConfigError where
  | unreadable
  | unparsable
  | tooManyInterfaces (configured allowed : Nat)
deriving DecidableEq, Repr

def ConfigError.message : ConfigError → String
  | unreadable => "failed to read config"
  | unparsable => "failed to parse config"
  | tooManyInterfaces configured allowed =>
    "invalid config: " ++ toString configured ++ " interfaces configured, at most "
      ++ toString allowed ++ " allowed"

def Config.validate (c : Config) : Except ConfigError Unit :=
  if c.maxInterfaces < c.interfaces.length then
    .error (.tooManyInterfaces c.interfaces.length c.maxInterfaces)
  else .ok ()

end NamedRelay
