import GraphQL.Enumeration
import GraphQL.Logger
import GraphQL.Proofs.Conformance
import GraphQL.Proofs.Containment
import GraphQL.Proofs.NullPropagation
import GraphQL.Proofs.StaticValidity
import GraphQL.Registry.SubType
import GraphQL.Session
import GraphQL.Settings.Environment
import GraphQL.Text.Hex
import GraphQL.Proofs.Agreement
import GraphQL.Proofs.Gathering
import GraphQL.Proofs.InputTyping
import GraphQL.Proofs.Validity
import GraphQL.Proofs.Fragments
import GraphQL.Proofs.Independence
import GraphQL.Proofs.Arguments
import GraphQL.Proofs.Depth
import GraphQL.Proofs.SubTyping
import GraphQL.Proofs.Termination
import GraphQL.Proofs.Invariants
import GraphQL.Proofs.Stopping
import GraphQL.Proofs.Implementers
import GraphQL.Proofs.Introspection
import GraphQL.Proofs.Calls
import GraphQL.Proofs.InputPaths
import GraphQL.Proofs.Finiteness
import GraphQL.Proofs.ErrorPaths
import GraphQL.Proofs.Pointwise
import GraphQL.Proofs.Refusal
import GraphQL.Proofs.Decisions
import GraphQL.Proofs.Traversal
import GraphQL.Proofs.ReferenceGraph
import GraphQL.Proofs.PossibleTypes
import GraphQL.Proofs.BuildFailures
import GraphQL.Proofs.Leniency
import GraphQL.Proofs.Members
import GraphQL.Proofs.Retention
import GraphQL.Proofs.Unambiguity
import GraphQL.Proofs.DepthFirst
import GraphQL.Proofs.Sharing
import GraphQL.Proofs.Reentry
