import QueryScope.Bson.Assignable
import QueryScope.Bson.Basic
import QueryScope.Bson.Constant
import QueryScope.Bson.Display
import QueryScope.Bson.Merge
import QueryScope.Bson.Union
import QueryScope.Catalog.Error
import QueryScope.Catalog.Explain
import QueryScope.Catalog.ReadModel
import QueryScope.Catalog.Snapshot
import QueryScope.Catalog.TypeName
import QueryScope.Decimal.Shortest
import QueryScope.Host.Builder
import QueryScope.Host.Program
import QueryScope.Host.Samples
import QueryScope.Host.Spelling
import QueryScope.Host.Type
import QueryScope.Interchange.Bson
import QueryScope.Interchange.Catalog
import QueryScope.Interchange.Config
import QueryScope.Interchange.Document
import QueryScope.Interchange.Errors
import QueryScope.Interchange.Host
import QueryScope.Interchange.Lint
import QueryScope.Interchange.Program
import QueryScope.Interchange.ReadModel
import QueryScope.Interchange.Shell
import QueryScope.Interchange.Snapshot
import QueryScope.Interchange.Yaml
import QueryScope.Json.Reader
import QueryScope.Json.Value
import QueryScope.Json.Writer
import QueryScope.Lint.Engine
import QueryScope.Lint.Error
import QueryScope.Lint.Gather
import QueryScope.Lint.Input
import QueryScope.Lint.InsightKind
import QueryScope.Lint.Inspection
import QueryScope.Lowering.Calls
import QueryScope.Lowering.Constants
import QueryScope.Lowering.Criteria.Filters
import QueryScope.Lowering.Criteria.Query
import QueryScope.Lowering.Criteria.Shapes
import QueryScope.Lowering.Criteria.Sorts
import QueryScope.Lowering.Criteria.Stages
import QueryScope.Lowering.Criteria.Updates
import QueryScope.Lowering.Driver.Builders
import QueryScope.Lowering.Driver.Query
import QueryScope.Lowering.Error
import QueryScope.Lowering.Handles
import QueryScope.Lowering.HostTypes
import QueryScope.Lowering.Names
import QueryScope.Lowering.Nesting
import QueryScope.Lowering.Parser
import QueryScope.Query.Cluster
import QueryScope.Query.Command
import QueryScope.Query.Dialect
import QueryScope.Query.Namespace
import QueryScope.Query.Node
import QueryScope.Query.Operator
import QueryScope.Query.Schema
import QueryScope.Requests.Catalog
import QueryScope.Requests.Lint
import QueryScope.Requests.Lowering
import QueryScope.Requests.Nodes
import QueryScope.Requests.Programs
import QueryScope.Requests.Respond
import QueryScope.Requests.Service
import QueryScope.Requests.Session
import QueryScope.Requests.Values
import QueryScope.Service.Config
import QueryScope.Service.Decorate
import QueryScope.Service.Error
import QueryScope.Service.LogFilter
import QueryScope.Service.Registry
import QueryScope.Session.Cache
import QueryScope.Session.Keyed
import QueryScope.Session.Service
import QueryScope.Session.Tracker
import QueryScope.Severity
import QueryScope.Shell.Doc
import QueryScope.Shell.Index
import QueryScope.Shell.Query
import QueryScope.Shell.Writer
import QueryScope.Testing.Assertions
import QueryScope.Text.Blank
import QueryScope.Text.Literal
import QueryScope.Text.Lower
import QueryScope.Text.Qualified
import QueryScope.Text.Quoted
import QueryScope.Text.Replace
import QueryScope.Text.Unsigned
import QueryScope.Yaml.Basic
import QueryScope.Yaml.Block
import QueryScope.Yaml.Flow
import QueryScope.Proofs.Session.Operations
import QueryScope.Proofs.Session.Freshness
import QueryScope.Proofs.Session.Siblings
import QueryScope.Proofs.Lowering.Flattening
import QueryScope.Proofs.Host.SyntaxGraph
import QueryScope.Proofs.Lowering.Anchors
import QueryScope.Proofs.Bson.Canonical
import QueryScope.Proofs.Bson.Assignability
import QueryScope.Proofs.Bson.Merging
import QueryScope.Proofs.Bson.Covering
import QueryScope.Proofs.Shell.Writable
import QueryScope.Proofs.Shell.Runnable
import QueryScope.Proofs.Query.Components
import QueryScope.Proofs.Lowering.Namespaces
import QueryScope.Proofs.Lint.Gathering
import QueryScope.Proofs.Lint.MergedSchema
import QueryScope.Proofs.Shell.Conditions
import QueryScope.Proofs.Lowering.DepthBound
import QueryScope.Proofs.Lowering.Nesting
import QueryScope.Proofs.Json.TextLayer
import QueryScope.Proofs.Interchange.RoundTrip
import QueryScope.Proofs.Lowering.SortChains
import QueryScope.Proofs.Query.NamespaceText
import QueryScope.Proofs.Lint.InsightMessages
import QueryScope.Proofs.Shell.IndexFields
import QueryScope.Proofs.Lowering.CriteriaChains
import QueryScope.Proofs.Host.Hierarchy
import QueryScope.Proofs.Bson.Flattened
import QueryScope.Proofs.Service.DefaultDatabase
import QueryScope.Proofs.Host.StaticTypes
