import OpenStrata.Core.Json
import OpenStrata.Core.Error
import OpenStrata.Core.Text
import OpenStrata.Core.Serde
import OpenStrata.Core.Digest
import OpenStrata.Core.Directory
import OpenStrata.Core.Utf8
import OpenStrata.Core.Printing
import OpenStrata.Core.Segments
import OpenStrata.Lib.SortBy
import OpenStrata.Lib.Worklist
import OpenStrata.Lib.Kahn
import OpenStrata.Lib.TreeMap
import OpenStrata.Lib.DepthFirst
import OpenStrata.Lib.Program
import OpenStrata.Lib.ProgramSpec
import OpenStrata.Plugin.Version
import OpenStrata.Platform.OpenUsd
import OpenStrata.Platform.Selector
import OpenStrata.Plugin.Workspace
import OpenStrata.Plugin.WorkspaceGraph
import OpenStrata.Plugin.WorkspaceLaws
import OpenStrata.Artifact.Component
import OpenStrata.Artifact.Policy
import OpenStrata.Artifact.Reference
import OpenStrata.Artifact.Push
import OpenStrata.Artifact.Record
import OpenStrata.Artifact.Evidence
import OpenStrata.Artifact.Extraction
import OpenStrata.Artifact.Generate
import OpenStrata.Artifact.Archive
import OpenStrata.Artifact.ArchiveStream
import OpenStrata.Transport.Verify
import OpenStrata.Transport.Trust
import OpenStrata.Artifact.StoreOps
import OpenStrata.Artifact.Store
import OpenStrata.Artifact.StoreSteps
import OpenStrata.Formation.Composition
import OpenStrata.Formation.Visit
import OpenStrata.Formation.Closure
import OpenStrata.Formation.Reordering
import OpenStrata.Formation.Candidates
import OpenStrata.Formation.OrderIndependence
import OpenStrata.Formation.Conflicts
import OpenStrata.Artifact.StoreSound
import OpenStrata.Artifact.StoreMerge
import OpenStrata.Artifact.StoreInstall
import OpenStrata.Artifact.StoreRuns
import OpenStrata.Artifact.Atomicity
import OpenStrata.Artifact.StoreHeld
import OpenStrata.Artifact.StoreHistory
import OpenStrata.Artifact.SelectorTag
import OpenStrata.Transport.Oci
import OpenStrata.Transport.OciRoundTrip
import OpenStrata.Core.Serialize
import OpenStrata.Artifact.RecordJson
import OpenStrata.Formation.Sdk
import OpenStrata.Formation.SdkTree
import OpenStrata.Lib.Overlay
import OpenStrata.Manifest.Renderer
import OpenStrata.Manifest.RendererMerge
import OpenStrata.Manifest.RendererProvenance
import OpenStrata.Build.Lease
import OpenStrata.Build.LeaseRuns
import OpenStrata.Ci.Matrix
import OpenStrata.Ci.Validate
import OpenStrata.Platform.Requirement
import OpenStrata.Ci.Cells
import OpenStrata.Ci.Document
import OpenStrata.Ci.Steps
import OpenStrata.Ci.GitHub
import OpenStrata.Ci.Release
import OpenStrata.Ci.Accepted
import OpenStrata.Ci.Jobs
import OpenStrata.Ci.Values
import OpenStrata.Lib.Yaml
import OpenStrata.Core.Ascii
import OpenStrata.Ci.SourceChecks
import OpenStrata.Core.Find
import OpenStrata.Ci.Charset
import OpenStrata.Lib.YamlSchema
import OpenStrata.Ci.IncludeEntries
import OpenStrata.Lib.SearchPath
import OpenStrata.Core.Paths
import OpenStrata.Runtime.Manifest
import OpenStrata.Runtime.Env
import OpenStrata.Runtime.Render
import OpenStrata.Plugin.Doctor
import OpenStrata.Plugin.External
import OpenStrata.Build.Completion
import OpenStrata.Build.Managed
import OpenStrata.Build.Tested
import OpenStrata.Build.ViewportLaunch
import OpenStrata.Build.Outputs
import OpenStrata.Build.RendererHistories
import OpenStrata.Formation.Manifest
import OpenStrata.Formation.Resolve
import OpenStrata.Formation.Compatibility
import OpenStrata.Formation.Composed
import OpenStrata.Formation.Portability
import OpenStrata.Formation.Replay
import OpenStrata.Formation.ReplayExact
import OpenStrata.Product.Contract
import OpenStrata.Product.Aggregate
import OpenStrata.Product.Activation
import OpenStrata.Product.Verify
import OpenStrata.Lib.ZeroPadded
import OpenStrata.Core.Parts
import OpenStrata.Platform.Constraint
import OpenStrata.Plugin.Ranges
import OpenStrata.Artifact.Authorization
import OpenStrata.Platform.SelectorCanonical
import OpenStrata.Transport.Challenge
import OpenStrata.Artifact.SbomMatching
import OpenStrata.Artifact.StoreCalls
import OpenStrata.Lib.Matching
import OpenStrata.Lib.RangeScan
import OpenStrata.Formation.SdkLinks
import OpenStrata.Formation.SdkActivation
import OpenStrata.Artifact.ArchiveExact
import OpenStrata.Artifact.Locator
import OpenStrata.Extension.Explanation
import OpenStrata.Transport.Addressable
import OpenStrata.Core.Unambiguous
import OpenStrata.Build.Base64
import OpenStrata.Build.Bound
import OpenStrata.Lib.Greatest
import OpenStrata.Lib.Windows
import OpenStrata.Lib.Endian
import OpenStrata.Build.Glibc
import OpenStrata.Build.Macho
import OpenStrata.Lib.Wire
import OpenStrata.Lib.Zip
import OpenStrata.Lib.Csv
import OpenStrata.Lib.Base64Url
import OpenStrata.Build.Wheel
import OpenStrata.Build.WheelRecord
import OpenStrata.Build.Package
import OpenStrata.Build.Presets
import OpenStrata.Core.JsonText
import OpenStrata.Lib.KeyMap
import OpenStrata.Plugin.PlugInfo
import OpenStrata.Plugin.SchemaTypes
import OpenStrata.Plugin.Session
import OpenStrata.Plugin.Golden
import OpenStrata.Build.ExternalBuild
import OpenStrata.Lib.FileTree
import OpenStrata.Formation.Compose
import OpenStrata.Lib.Glob
import OpenStrata.Plugin.Headers
import OpenStrata.Build.Junit
import OpenStrata.Plugin.Identifier
import OpenStrata.Lib.LinkWalk
import OpenStrata.Plugin.BundlePaths
import OpenStrata.Plugin.Members
import OpenStrata.Lib.Replace
import OpenStrata.Build.PythonExport
import OpenStrata.Plugin.ToolStaging
import OpenStrata.Transport.BlobDownload
