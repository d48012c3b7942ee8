import EnvTemplates.CommandLine.Basic
import EnvTemplates.CommandLine.Listing
import EnvTemplates.Main
import EnvTemplates.Session
import EnvTemplates.Proofs.Text.Replacement
import EnvTemplates.Proofs.Substitution.Simultaneous
import EnvTemplates.Proofs.Project.Rendering
import EnvTemplates.Proofs.Project.Warnings
import EnvTemplates.Proofs.Path.Join
import EnvTemplates.Proofs.FileTree.Nodes
import EnvTemplates.Proofs.Project.Discovery
import EnvTemplates.Proofs.FileTree.Resolution
import EnvTemplates.Proofs.Project.Atomicity
import EnvTemplates.Proofs.Placeholder.Grammar
import EnvTemplates.Proofs.Project.Accounting
import EnvTemplates.Proofs.FileTree.Entries
import EnvTemplates.Proofs.Project.Cycles
import EnvTemplates.Proofs.Naming
import EnvTemplates.Proofs.Text.Utf8
import EnvTemplates.Proofs.FileTree.LinkFree
import EnvTemplates.Proofs.Project.Outputs
import EnvTemplates.Proofs.Substitution.Idle
import EnvTemplates.Proofs.Project.Unused
import EnvTemplates.Proofs.FileTree.Agreement
import EnvTemplates.Proofs.Project.Dependence
import EnvTemplates.Proofs.Project.Rerun
import EnvTemplates.Proofs.CommandLine.Arguments
import EnvTemplates.Proofs.CommandLine.DryRun
import EnvTemplates.Proofs.Text.Weight
import EnvTemplates.Proofs.Substitution.Exhaustion
import EnvTemplates.Proofs.Substitution.Conservation
import EnvTemplates.Proofs.Substitution.Convergence
import EnvTemplates.Proofs.Text.Pieces
import EnvTemplates.Proofs.Naming.Markers
import EnvTemplates.Proofs.Variables.History
import EnvTemplates.Proofs.Substitution.Recognition
import EnvTemplates.Proofs.Project.Exclusion
import EnvTemplates.Proofs.Naming.Remainder
import EnvTemplates.Proofs.Project.Placement
import EnvTemplates.Proofs.Text.Separation
import EnvTemplates.Proofs.Text.IgnoringCase
import EnvTemplates.Proofs.Naming.PascalCase
import EnvTemplates.Proofs.Variables.Layout
