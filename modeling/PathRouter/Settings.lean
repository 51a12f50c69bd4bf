/-!
# Settings

How routes are read and parameters are returned, fixed for the length of a call.
-/
namespace PathRouter

structure Settings where
  /-- Refuses routes that are not well formed instead of reading them as they come. -/
  strict : Bool := false
  /-- Percent-decodes the values of parameters. -/
  decodeParams : Bool := true
  deriving DecidableEq, Repr

def Settings.standard : Settings := {}

def Settings.isStandard (settings : Settings) : Bool := settings == .standard

end PathRouter
