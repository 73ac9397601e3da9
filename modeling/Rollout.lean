import Rollout.Action
import Rollout.CommandLine.Arguments
import Rollout.CommandLine.Settings
import Rollout.CommandLine.Switch
import Rollout.Decimal.Power
import Rollout.Decimal.Shortest
import Rollout.Format
import Rollout.Host.Command
import Rollout.Host.Error
import Rollout.Host.FileTree
import Rollout.Host.Path
import Rollout.Host.Program
import Rollout.Http.MediaType
import Rollout.Http.Message
import Rollout.Http.Percent
import Rollout.Http.Url
import Rollout.Json.Decode
import Rollout.Json.Fault
import Rollout.Json.Node
import Rollout.Json.Number
import Rollout.Json.Token
import Rollout.Json.Value
import Rollout.Kubernetes.Call
import Rollout.Kubernetes.Client
import Rollout.Kubernetes.Config
import Rollout.Kubernetes.Discovery
import Rollout.Kubernetes.Error
import Rollout.Kubernetes.LogLines
import Rollout.Kubernetes.Resource
import Rollout.Kubernetes.System
import Rollout.Kubernetes.Timeline
import Rollout.Kubernetes.Workload
import Rollout.Logs.Race
import Rollout.Logs.Session
import Rollout.Logs.Sink
import Rollout.Logs.System
import Rollout.Logs.Tail
import Rollout.Main
import Rollout.Net.Address
import Rollout.Pattern.Basic
import Rollout.Pattern.CharSet
import Rollout.Pattern.Parse
import Rollout.Pipeline.Basic
import Rollout.Pipeline.Error
import Rollout.Pipeline.Settings
import Rollout.Plan.Artifact
import Rollout.Plan.Attach
import Rollout.Plan.Basic
import Rollout.Plan.Error
import Rollout.Plan.Invocation
import Rollout.Plan.Operation
import Rollout.Plan.Options
import Rollout.Proofs.Except
import Rollout.Proofs.Format
import Rollout.Proofs.Host.Child
import Rollout.Proofs.Host.FileTree
import Rollout.Proofs.Host.Program
import Rollout.Proofs.Http.Percent
import Rollout.Proofs.Http.Segment
import Rollout.Proofs.Http.Url
import Rollout.Proofs.Json.Decode
import Rollout.Proofs.Json.Document
import Rollout.Proofs.Json.Grammar
import Rollout.Proofs.Json.Literal
import Rollout.Proofs.Json.Pretty
import Rollout.Proofs.Json.Record
import Rollout.Proofs.Json.Sequence
import Rollout.Proofs.Json.Shape
import Rollout.Proofs.Json.Token
import Rollout.Proofs.Json.Tree
import Rollout.Proofs.Kubernetes.Address
import Rollout.Proofs.Kubernetes.Callbacks
import Rollout.Proofs.Kubernetes.Coverage
import Rollout.Proofs.Kubernetes.CurrentContext
import Rollout.Proofs.Kubernetes.FollowerHistory
import Rollout.Proofs.Kubernetes.Followers
import Rollout.Proofs.Kubernetes.ListingFailure
import Rollout.Proofs.Kubernetes.LogLines
import Rollout.Proofs.Kubernetes.LogWindow
import Rollout.Proofs.Kubernetes.Rendered
import Rollout.Proofs.Kubernetes.Timeline
import Rollout.Proofs.Logs.Delivery
import Rollout.Proofs.Logs.Race
import Rollout.Proofs.Logs.Session
import Rollout.Proofs.Pipeline.Course
import Rollout.Proofs.Pipeline.DryRun
import Rollout.Proofs.Pipeline.Fetched
import Rollout.Proofs.Pipeline.Refusal
import Rollout.Proofs.Pipeline.Registration
import Rollout.Proofs.Pipeline.Teardown
import Rollout.Proofs.Plan.Applied
import Rollout.Proofs.Plan.ArtifactNames
import Rollout.Proofs.Plan.CommandLines
import Rollout.Proofs.Plan.Commands
import Rollout.Proofs.Plan.Endpoint
import Rollout.Proofs.Plan.Execution
import Rollout.Proofs.Plan.Files
import Rollout.Proofs.Plan.Identity
import Rollout.Proofs.Plan.Kept
import Rollout.Proofs.Plan.Launch
import Rollout.Proofs.Plan.Operations
import Rollout.Proofs.Plan.Parts
import Rollout.Proofs.Plan.Placement
import Rollout.Proofs.Plan.Refusal
import Rollout.Proofs.Plan.Rendering
import Rollout.Proofs.Plan.Shards
import Rollout.Proofs.Registry.Address
import Rollout.Proofs.Registry.Client
import Rollout.Proofs.Registry.History
import Rollout.Proofs.Registry.Store
import Rollout.Proofs.Registry.Validity
import Rollout.Proofs.Spec.Agreement
import Rollout.Proofs.Spec.Conformance
import Rollout.Proofs.Spec.Report
import Rollout.Proofs.Spec.Validation
import Rollout.Proofs.Spec.Wire
import Rollout.Proofs.Text.Split
import Rollout.Proofs.Text.Utf8
import Rollout.Proofs.Yaml.Decode
import Rollout.Proofs.Yaml.Document
import Rollout.Proofs.Yaml.Flow
import Rollout.Proofs.Yaml.Source
import Rollout.Registry.Call
import Rollout.Registry.Client
import Rollout.Registry.Config
import Rollout.Registry.Service
import Rollout.Registry.Store
import Rollout.Security.Der
import Rollout.Security.Identity
import Rollout.Security.Pem
import Rollout.Shell.Arithmetic
import Rollout.Shell.Builtin
import Rollout.Shell.Glob
import Rollout.Shell.Print
import Rollout.Shell.Process
import Rollout.Shell.Script
import Rollout.Shell.Tool
import Rollout.Shell.Word
import Rollout.Spec.Basic
import Rollout.Spec.Load
import Rollout.Spec.Validation
import Rollout.Spec.Wire
import Rollout.Text.Base64
import Rollout.Text.Blank
import Rollout.Text.Category
import Rollout.Text.Letter
import Rollout.Text.Literal
import Rollout.Text.Style
import Rollout.Text.Utf8
import Rollout.Yaml.Decode
import Rollout.Yaml.Error
import Rollout.Yaml.Node
import Rollout.Yaml.Resolve
import Rollout.Yaml.Scalar
import Rollout.Yaml.Source
import Rollout.Yaml.Tag
import Rollout.Yaml.Token
import Rollout.Yaml.Value
