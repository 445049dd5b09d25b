import Bundleless.Text.Basic
import Bundleless.Url.Fault

/-! # Failures

    What can go wrong while dependencies are resolved, fetched and wired, and
    the one wording of each.
-/

namespace Bundleless

/-- A failure, by its cause. -/
inductive Failure where
  /-- No candidate URL of a dependency could be reached. -/
  | unresolved (name : String) (tried : List String)
  /-- A script was loaded and did not publish its global. -/
  | globalMissing (url global : String)
  /-- A script or module could not be loaded. -/
  | scriptFailed (url : String)
  /-- A module was asked for before it was loaded. -/
  | notLoaded (name : String)
  /-- A name is neither registered, nor local, nor covered by a rule. -/
  | notRegistered (name : String)
  /-- No rule covers the name. -/
  | noRule (name : String)
  /-- No candidate of a local module answered. -/
  | localNotFound (basePath : String) (tried : List String)
  /-- A dependency of a source failed. -/
  | preload (specifier : String) (cause : Failure)
  | compile (path message : String)
  | execute (path message : String)
  | render (message : String)
  /-- The configuration document is not one. -/
  | config (message : String)
  /-- A request was answered with a status other than success. -/
  | http (url : String) (status : Nat)
  /-- A request was not answered. -/
  | network (message : String)
  /-- A text is no URL. -/
  | invalidUrl (fault : Url.Fault)
  /-- A failure of the host, in its own words. -/
  | other (message : String)
deriving DecidableEq, Repr, Inhabited

namespace Failure

/-- The wording of a failure. -/
def message : Failure → String
  | unresolved name tried =>
    "Unable to resolve URL for module " ++ name ++ " (tried: " ++ Text.join ", " tried ++ ")"
  | globalMissing url global => "Global not found after loading " ++ url ++ ": " ++ global
  | scriptFailed url => "Failed to load " ++ url
  | notLoaded name =>
    "Module not yet loaded: " ++ name
      ++ " (use a preload step via require_async for dynamic modules)"
  | notRegistered name => "Module not registered: " ++ name
  | noRule name => "No dynamic rule for module: " ++ name
  | localNotFound basePath tried =>
    "Failed to load local module: " ++ basePath ++ " (tried: " ++ Text.join ", " tried ++ ")"
  | preload specifier cause =>
    "Failed to preload module(s): " ++ specifier ++ ": " ++ cause.message
      ++ ". Check file paths and dynamic module rules."
  | compile path message => "Compile error in " ++ path ++ ": " ++ message
  | execute path message => "Execution error in " ++ path ++ ": " ++ message
  | render message => "Render error: " ++ message
  | config message => "Configuration error: " ++ message
  | http url status => "Failed to fetch " ++ url ++ ": HTTP " ++ toString status
  | network message => "Network error: " ++ message
  | invalidUrl fault => "Invalid URL: " ++ fault.message
  | other message => message

/-- A mistake of the program that asks, which trying again does not mend. -/
def isProgrammerError : Failure → Bool
  | notLoaded _ | notRegistered _ | noRule _ => true
  | _ => false

/-- The wording for a dependency that has neither a URL nor a name. -/
def namelessDescriptor : Failure :=
  .config "module descriptor requires either \x60url\x60 or \x60name\x60"

/-- The wording for a document that cannot be read. -/
def malformedConfig : Failure := .config "the document is not a configuration"

end Failure

end Bundleless
