import StateMarkup.Command.Files
import StateMarkup.Main
import StateMarkup.Script.Session
import StateMarkup.Proofs.Engine.Answer
import StateMarkup.Proofs.Engine.StateKept
import StateMarkup.Proofs.HookKey
import StateMarkup.Proofs.Schedule
import StateMarkup.Proofs.Engine.Compiled
import StateMarkup.Proofs.TransitionTable
import StateMarkup.Proofs.Declarations
import StateMarkup.Proofs.Engine.Schedule
import StateMarkup.Proofs.Engine.Fallback
import StateMarkup.Proofs.Node.Grammar
import StateMarkup.Proofs.Node.Visits
import StateMarkup.Proofs.Schema.Survey
import StateMarkup.Proofs.Schema.States
import StateMarkup.Proofs.Schema.CloseTags
import StateMarkup.Proofs.Node.Texts
import StateMarkup.Proofs.Schema.BareText
import StateMarkup.Proofs.Node.Markup
import StateMarkup.Proofs.Node.Reading
import StateMarkup.Proofs.Engine.Declared
import StateMarkup.Proofs.Engine.Listing
import StateMarkup.Proofs.Token.Spacing
import StateMarkup.Proofs.Node.Shape
import StateMarkup.Proofs.Node.Printing
import StateMarkup.Proofs.Node.RoundTrip
import StateMarkup.Proofs.Schema.Placed
import StateMarkup.Proofs.Schema.Writing
import StateMarkup.Proofs.Schema.RoundTrip
import StateMarkup.Proofs.Token.Places
import StateMarkup.Proofs.Token.Gaps
import StateMarkup.Proofs.Engine.Relocation
import StateMarkup.Proofs.Engine.Strictness
import StateMarkup.Proofs.Machine
import StateMarkup.Proofs.Engine.Refusal
import StateMarkup.Proofs.Engine.Logging
import StateMarkup.Proofs.Engine.Words
import StateMarkup.Proofs.Registry
import StateMarkup.Proofs.Simulation
import StateMarkup.Proofs.Node.Attributes
import StateMarkup.Proofs.Node.Faults
import StateMarkup.Proofs.Node.Paths
import StateMarkup.Proofs.Schema.Walk
import StateMarkup.Proofs.Engine.Kept
import StateMarkup.Proofs.Machine.Calls
import StateMarkup.Proofs.Diagnostic.Hint
import StateMarkup.Proofs.HookTable
import StateMarkup.Proofs.Text.Lines
import StateMarkup.Node.Descent
import StateMarkup.Proofs.Diagnostic.Excerpt
import StateMarkup.Proofs.Node.Descent
import StateMarkup.Proofs.Schema.Siblings
import StateMarkup.Proofs.Engine.StrictReport
