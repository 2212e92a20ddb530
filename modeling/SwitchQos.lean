import SwitchQos.Codec.Basic
import SwitchQos.CommandLine
import SwitchQos.Config.Basic
import SwitchQos.Config.Document
import SwitchQos.Config.Shape
import SwitchQos.Config.Validation
import SwitchQos.Directory
import SwitchQos.Json.Basic
import SwitchQos.Json.Double
import SwitchQos.Json.Fields
import SwitchQos.Json.Numeral
import SwitchQos.Json.Reader
import SwitchQos.Json.Token
import SwitchQos.Main
import SwitchQos.MapEntry.Expansion
import SwitchQos.MapEntry.Objects
import SwitchQos.Object.Basic
import SwitchQos.Object.Provisioned
import SwitchQos.Object.Record
import SwitchQos.Object.Value
import SwitchQos.Proofs.Codec.Attributes
import SwitchQos.Proofs.Codec.Denotations
import SwitchQos.Proofs.Codec.Inverse
import SwitchQos.Proofs.Codec.RoundTrip
import SwitchQos.Proofs.Codec.Texts
import SwitchQos.Proofs.Directory
import SwitchQos.Proofs.MapEntry.Authoring
import SwitchQos.Proofs.MapEntry.Nodes
import SwitchQos.Proofs.MapEntry.ReadBack
import SwitchQos.Proofs.Object.Assembly
import SwitchQos.Proofs.Object.KeyData
import SwitchQos.Proofs.Object.Provisioned
import SwitchQos.Proofs.Provision.Bindings
import SwitchQos.Proofs.Provision.EntryOverlap
import SwitchQos.Proofs.Provision.GroupDiscovery
import SwitchQos.Proofs.Provision.Arrivals
import SwitchQos.Proofs.Provision.MapBinding
import SwitchQos.Proofs.Provision.MapTables
import SwitchQos.Proofs.Provision.QueueLookup
import SwitchQos.Proofs.Provision.Submissions
import SwitchQos.Proofs.Provision.Tasks
import SwitchQos.Proofs.Provision.TreeBindings
import SwitchQos.Proofs.Provision.TreeBuilding
import SwitchQos.Proofs.Provision.TreeSettings
import SwitchQos.Proofs.Results
import SwitchQos.Proofs.Schema.Binary
import SwitchQos.Proofs.Schema.Paths
import SwitchQos.Proofs.Schema.Symbols
import SwitchQos.Proofs.Store.Batches
import SwitchQos.Proofs.Store.Entities
import SwitchQos.Proofs.Store.EntryBatches
import SwitchQos.Proofs.Store.Exchange
import SwitchQos.Proofs.Store.FiniteMap
import SwitchQos.Proofs.Store.Integrity
import SwitchQos.Proofs.Store.Operations
import SwitchQos.Proofs.Store.Overwriting
import SwitchQos.Proofs.Store.Reachable
import SwitchQos.Proofs.Store.Rewriting
import SwitchQos.Provision.Error
import SwitchQos.Provision.GroupIndex
import SwitchQos.Provision.MapTable
import SwitchQos.Provision.Names
import SwitchQos.Provision.PortBinding
import SwitchQos.Provision.PortTracker
import SwitchQos.Provision.Report
import SwitchQos.Provision.Run
import SwitchQos.Provision.Scheduler
import SwitchQos.Provision.TreeBinding
import SwitchQos.Schema.Attribute
import SwitchQos.Schema.Error
import SwitchQos.Schema.MapType
import SwitchQos.Schema.ObjectClass
import SwitchQos.Schema.Storage
import SwitchQos.Schema.Symbol
import SwitchQos.Store.Contents
import SwitchQos.Store.Exchange
import SwitchQos.Store.Memory
import SwitchQos.Store.Request
import SwitchQos.Store.Scripted
import SwitchQos.Store.Topology
import SwitchQos.Store.TopologyDocument
import SwitchQos.Text.Affixes
import SwitchQos.Text.Blank
import SwitchQos.Text.Bracketed
import SwitchQos.Text.Number
import SwitchQos.Text.Source
import SwitchQos.Proofs.Store.Numbering
import SwitchQos.Proofs.Store.KeyPlacement
import SwitchQos.Proofs.Provision.Steadiness
import SwitchQos.Proofs.Provision.Requests
import SwitchQos.Proofs.Provision.Rebinding
import SwitchQos.Proofs.Provision.Isolation
import SwitchQos.Proofs.Provision.Staging
import SwitchQos.Proofs.Provision.MapUpdates
import SwitchQos.Proofs.Store.Parallel
import SwitchQos.Proofs.Store.Listings
import SwitchQos.Proofs.Store.Parts
import SwitchQos.Proofs.Store.Framing
import SwitchQos.Proofs.Provision.Footprint
import SwitchQos.Proofs.Provision.PortDiscovery
import SwitchQos.Proofs.Provision.Confinement
import SwitchQos.Proofs.Provision.PortAgreement
import SwitchQos.Proofs.Provision.PortOrder
import SwitchQos.Proofs.Provision.RunFrame
import SwitchQos.Proofs.Provision.ProfileRenaming
import SwitchQos.Proofs.Store.Seeding
import SwitchQos.Proofs.Provision.ProfileCreation
import SwitchQos.Proofs.Provision.Rerun
import SwitchQos.Proofs.Provision.RerunAgreement
import SwitchQos.Proofs.Store.Traces
import SwitchQos.Proofs.Provision.Origins
import SwitchQos.Proofs.Provision.Errands
import SwitchQos.Proofs.Provision.ProfileTexts
import SwitchQos.Proofs.Provision.LogAgreement
import SwitchQos.Proofs.Provision.SwitchMarks
import SwitchQos.Proofs.Store.TreeIds
import SwitchQos.Proofs.Provision.TreeLeveling
import SwitchQos.Proofs.Provision.ProfileNames
import SwitchQos.Proofs.Provision.RunStages
import SwitchQos.Proofs.Provision.ProfileBinding
import SwitchQos.Proofs.Store.Turns
import SwitchQos.Proofs.Provision.TreeCourses
import SwitchQos.Proofs.Provision.ChildLists
import SwitchQos.Proofs.Provision.TreeOutcomes
import SwitchQos.Proofs.Store.GroupAddition
import SwitchQos.Proofs.Provision.GroupHistory
import SwitchQos.Proofs.Provision.MapCreation
import SwitchQos.Proofs.Text.Affixes
import SwitchQos.Proofs.Text.Notation
import SwitchQos.Proofs.Text.Number
import SwitchQos.Proofs.MapEntry.Expansion
import SwitchQos.Proofs.Provision.Resolution
import SwitchQos.Proofs.Provision.MapSessions
import SwitchQos.Proofs.Store.MapParts
import SwitchQos.Proofs.Provision.TableDeletion
import SwitchQos.Proofs.Provision.TableHistories
import SwitchQos.Proofs.Codec.Denotations
import SwitchQos.Proofs.Provision.GroupReplies
import SwitchQos.Proofs.Provision.ConfiguredNumbers
import SwitchQos.Proofs.Store.Answers
import SwitchQos.Proofs.Object.Views
import SwitchQos.Proofs.Object.Writes
import SwitchQos.Proofs.Json.Reading
import SwitchQos.Proofs.Config.Validation
import SwitchQos.Proofs.Config.Shape
import SwitchQos.Proofs.Config.Documents
import SwitchQos.Proofs.Schema.Segments
