import ScriptCache.Url.Reader

/-!
# Addresses under which a fleet is reached

A resolver knows the canonical URL of the application, if one is set. It moves other URLs to its
host, so that an address of this machine leads wherever the application is served.
-/

namespace ScriptCache

structure Resolver where
  canonical : Option String
  deriving DecidableEq, Repr

namespace Resolver

/-- Later resolutions go by another canonical URL. -/
def setCanonicalUrl (r : Resolver) (canonical : Option String) : Resolver := { r with canonical }

/-- The canonical URL, when it is a URL with a host. -/
def canonicalUrl? (r : Resolver) : Option Url := do
  let u ← Url.parse? (← r.canonical)
  if u.host.isSome then some u else none

/-- The URL that a candidate stands for. Asked for the canonical host, it has the candidate's
path, query and fragment under the scheme, host and port of the canonical URL. Candidates that
are no URLs stand for nothing. -/
def resolve (r : Resolver) (candidate : String) (useCanonicalHost : Bool) : Option Url := do
  let u ← Url.parse? candidate
  if !useCanonicalHost || u.isOpaque then some u
  else
    match r.canonicalUrl? with
    | some canonical => some (canonical.withTailOf u)
    | none => some u

end Resolver

end ScriptCache
