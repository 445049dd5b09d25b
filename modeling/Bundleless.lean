import Bundleless.Config.Reader
import Bundleless.Config.Writer
import Bundleless.Json.Printer
import Bundleless.LocalPath
import Bundleless.Source
import Bundleless.ImportMap
import Bundleless.Load.Startup
import Bundleless.PageLoad
import Bundleless.Session
import Bundleless.Cli.Program
import Bundleless.Main
import Bundleless.Proofs.DependenciesFirst
import Bundleless.Proofs.ExecutedOnce
import Bundleless.Proofs.OwnDependencies
import Bundleless.Proofs.Directories
import Bundleless.Proofs.Tables
import Bundleless.Proofs.Origin
import Bundleless.Proofs.AllOrNothing
import Bundleless.Proofs.Names
import Bundleless.Proofs.Bindings
import Bundleless.Proofs.LoadedOnce
import Bundleless.Proofs.FirstFailure
import Bundleless.Proofs.Requests
import Bundleless.Proofs.Alike
import Bundleless.Proofs.Abandoned
import Bundleless.Proofs.FirstReachable
import Bundleless.Proofs.Retries
import Bundleless.Proofs.RetryCounter
import Bundleless.Proofs.NormalForms
import Bundleless.Proofs.Candidates
import Bundleless.Proofs.Verbosity
import Bundleless.Proofs.EntryDirectory
import Bundleless.Proofs.ConfigTexts
import Bundleless.Proofs.Namespaces
import Bundleless.Proofs.WrittenSpecifiers
import Bundleless.Proofs.StarredRules
import Bundleless.Proofs.PublishedDefaults
import Bundleless.Proofs.ModuleDirectory
import Bundleless.Proofs.LibrariesInOrder
import Bundleless.Proofs.ImportMaps
import Bundleless.Proofs.Overlay
import Bundleless.Proofs.Registrations
import Bundleless.Proofs.Surveys
