import CanonicalTokens.OutputFormat
import CanonicalTokens.CanonicalForm

/-!
# Configuration

The settings of the tool, in three sections, with the defaults that hold where nothing else is
said.
-/

namespace CanonicalTokens

open Numeral

namespace Config

/-- Limits of the two attempts to parse. A budget of zero is no limit. -/
structure Parsing where
  fastTimeoutMs : Nat
  forgivingTimeoutMs : Nat
  maxErrorNodes : Nat
  maxErrorRatio : Binary64
  deriving DecidableEq, Repr

structure Canonicalization where
  scopeBoundaries : ScopeBoundaries
  distinguishNumbers : Bool
  deriving DecidableEq, Repr

end Config

structure Config where
  parsing : Config.Parsing
  canonicalization : Config.Canonicalization
  format : OutputFormat
  deriving DecidableEq, Repr

namespace Config

def standard : Config :=
  ⟨⟨250, 5000, 32, ⟨0x3FD0000000000000⟩⟩, ⟨.legacy, false⟩, .json⟩

def parseLimits (config : Config) : ParseLimits :=
  { fastTimeout := .ofMillis config.parsing.fastTimeoutMs
    forgivingTimeout := .ofMillis config.parsing.forgivingTimeoutMs
    maxErrorNodes := config.parsing.maxErrorNodes
    maxErrorRatio := config.parsing.maxErrorRatio }

def walkOptions (config : Config) : WalkOptions :=
  ⟨config.canonicalization.scopeBoundaries, config.canonicalization.distinguishNumbers⟩

def canonicalOptions (config : Config) : CanonicalOptions :=
  ⟨config.parseLimits, config.walkOptions⟩

end Config

end CanonicalTokens
