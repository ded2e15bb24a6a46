import ProtoBindings.Descriptor.Write
import ProtoBindings.Main
import ProtoBindings.Proofs.CommandLine.Confined
import ProtoBindings.Proofs.CommandLine.Outputs
import ProtoBindings.Proofs.Descriptor.Declaration
import ProtoBindings.Proofs.Import.Aliases
import ProtoBindings.Proofs.Import.Canonical
import ProtoBindings.Proofs.Mapping.Answers
import ProtoBindings.Proofs.Mapping.Readings
import ProtoBindings.Proofs.Name.Case
import ProtoBindings.Proofs.Name.Word
import ProtoBindings.Proofs.Native.Duration
import ProtoBindings.Proofs.Native.MessageJson
import ProtoBindings.Proofs.Native.Timestamp
import ProtoBindings.Proofs.Number.Shortest
import ProtoBindings.Proofs.Plugin.Default
import ProtoBindings.Proofs.Plugin.Ending
import ProtoBindings.Proofs.Plugin.Imported
import ProtoBindings.Proofs.Plugin.Order
import ProtoBindings.Proofs.Plugin.Parameter
import ProtoBindings.Proofs.Plugin.Success
import ProtoBindings.Proofs.Resolver.Entries
import ProtoBindings.Proofs.Resolver.Failure
import ProtoBindings.Proofs.Resolver.History
import ProtoBindings.Proofs.Resolver.Leftover
import ProtoBindings.Proofs.Resolver.Placement
import ProtoBindings.Proofs.Resolver.References
import ProtoBindings.Proofs.Rpc
import ProtoBindings.Proofs.Service.Closure
import ProtoBindings.Proofs.Service.Keywords
import ProtoBindings.Proofs.Service.Names
import ProtoBindings.Proofs.Text.Literal
import ProtoBindings.Proofs.Value.Acyclic
import ProtoBindings.Proofs.Value.Agreement
import ProtoBindings.Proofs.Value.ClassDefaults
import ProtoBindings.Proofs.Value.Closure
import ProtoBindings.Proofs.Value.Emission
import ProtoBindings.Proofs.Value.EnumLookup
import ProtoBindings.Proofs.Value.EnumRange
import ProtoBindings.Proofs.Value.Imports
import ProtoBindings.Proofs.Value.Names
import ProtoBindings.Proofs.Value.Oneofs
import ProtoBindings.Proofs.Value.Presence
