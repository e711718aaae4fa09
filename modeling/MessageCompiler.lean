import MessageCompiler.Build.Schedule
import MessageCompiler.Log.Control
import MessageCompiler.Log.Session
import MessageCompiler.Main
import MessageCompiler.Proofs.Text.Lines
import MessageCompiler.Proofs.Text.Words
import MessageCompiler.Proofs.Source.Marks
import MessageCompiler.Proofs.Build.Commuting
import MessageCompiler.Proofs.Build.Confluence
import MessageCompiler.Proofs.Build.Recursive
import MessageCompiler.Proofs.Definition.Lines
import MessageCompiler.Proofs.Definition.Members
import MessageCompiler.Proofs.Definition.RoundTrip
import MessageCompiler.Proofs.Source.CSharp
import MessageCompiler.Proofs.Source.Declared
import MessageCompiler.Proofs.Source.Faithful
import MessageCompiler.Proofs.Definition.Requests
import MessageCompiler.Proofs.Source.Imports
import MessageCompiler.Proofs.Disk.Extension
import MessageCompiler.Proofs.Build.Overwriting
import MessageCompiler.Proofs.Build.Trees
import MessageCompiler.Proofs.Definition.Diagnostics
import MessageCompiler.Proofs.Log.Counting
import MessageCompiler.Proofs.Log.Agreement
import MessageCompiler.Proofs.Source.LineEnds
import MessageCompiler.Proofs.Source.Targets
import MessageCompiler.Proofs.Build.Accounting
import MessageCompiler.Proofs.Build.Logs
import MessageCompiler.Proofs.Build.Rebuilding
import MessageCompiler.Proofs.Build.Configurations
import MessageCompiler.Proofs.Command.Overriding
import MessageCompiler.Proofs.Command.Verbosity
import MessageCompiler.Proofs.Log.History
import MessageCompiler.Proofs.Source.Spelling
import MessageCompiler.Proofs.Command.DryRun
import MessageCompiler.Proofs.Definition.Endings
import MessageCompiler.Proofs.Source.Documentation
import MessageCompiler.Proofs.Source.CreationTime
import MessageCompiler.Proofs.Definition.Layout
import MessageCompiler.Proofs.Build.Isolation
import MessageCompiler.Proofs.Build.Written
import MessageCompiler.Proofs.Command.Admission
import MessageCompiler.Proofs.Command.Switches
import MessageCompiler.Proofs.Definition.Grammar
import MessageCompiler.Proofs.Definition.Name
import MessageCompiler.Proofs.Path.Entries
