import BicepForge.Metadata
import BicepForge.Registry

/-!
# The context of a run

Everything that checks and generators look at besides their input: the registry, the time, the
cache, and the provider of live metadata with the questions it was asked.
-/

namespace BicepForge

/-- What checks and generators look at besides their input. -/
structure Context where
  registry : Registry := .azure
  now : Instant
  cache : Cache := .empty
  provider? : Option Provider := none
  /-- The questions asked so far. -/
  log : List Query := []

namespace Context

/-- The provider, if there is one that can be asked. -/
def liveProvider? (c : Context) : Option Provider :=
  c.provider?.filter (·.authenticated)

/-- Notes questions that were asked. -/
def asked (c : Context) (queries : List Query) : Context :=
  { c with log := c.log ++ queries }

def summary (c : Context) : String :=
  "GenerationContext \x7b registry: " ++ toString c.registry.size ++ ", cached_types: " ++
    toString c.cache.size ++ ", metadata: " ++ toString c.provider?.isSome ++ " \x7d"

end Context

end BicepForge
