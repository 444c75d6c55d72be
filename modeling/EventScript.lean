import EventScript.Address
import EventScript.Builtin
import EventScript.Builtin.Call
import EventScript.CommandLine
import EventScript.Console
import EventScript.Diagnostic
import EventScript.Duration
import EventScript.Evaluation
import EventScript.EventLoop
import EventScript.Failure
import EventScript.Fault
import EventScript.Files
import EventScript.Heap
import EventScript.Host
import EventScript.Job
import EventScript.Machine
import EventScript.Main
import EventScript.Number.Exact
import EventScript.Number.Shortest
import EventScript.Number.Text
import EventScript.Offline
import EventScript.OrderedMap
import EventScript.Proofs.Evaluation.Acts
import EventScript.Proofs.Evaluation.Assignment
import EventScript.Proofs.Evaluation.Atomicity
import EventScript.Proofs.Evaluation.BigStep
import EventScript.Proofs.Evaluation.Binding
import EventScript.Proofs.Evaluation.Builtins
import EventScript.Proofs.Evaluation.CallDepth
import EventScript.Proofs.Evaluation.CallSites
import EventScript.Proofs.Evaluation.Chains
import EventScript.Proofs.Evaluation.Chronicle
import EventScript.Proofs.Evaluation.Construction
import EventScript.Proofs.Evaluation.Contents
import EventScript.Proofs.Evaluation.Contract
import EventScript.Proofs.Evaluation.Course
import EventScript.Proofs.Evaluation.Declaring
import EventScript.Proofs.Evaluation.Discipline
import EventScript.Proofs.Evaluation.Disciplined
import EventScript.Proofs.Evaluation.Ending
import EventScript.Proofs.Evaluation.Failing
import EventScript.Proofs.Evaluation.Fitted
import EventScript.Proofs.Evaluation.Growth
import EventScript.Proofs.Evaluation.Handling
import EventScript.Proofs.Evaluation.HandlingBuiltins
import EventScript.Proofs.Evaluation.Keeping
import EventScript.Proofs.Evaluation.Ledger
import EventScript.Proofs.Evaluation.LexicalScope
import EventScript.Proofs.Evaluation.Nesting
import EventScript.Proofs.Evaluation.OwnContents
import EventScript.Proofs.Evaluation.Plan
import EventScript.Proofs.Evaluation.Receiving
import EventScript.Proofs.Evaluation.Record
import EventScript.Proofs.Evaluation.Refusal
import EventScript.Proofs.Evaluation.ScopeTree
import EventScript.Proofs.Evaluation.Spans
import EventScript.Proofs.Evaluation.Stable
import EventScript.Proofs.Evaluation.Surroundings
import EventScript.Proofs.Evaluation.Trace
import EventScript.Proofs.Evaluation.Visibility
import EventScript.Proofs.EventLoop.Completion
import EventScript.Proofs.EventLoop.HandingOn
import EventScript.Proofs.EventLoop.System
import EventScript.Proofs.EventLoop.TaskOrder
import EventScript.Proofs.EventLoop.VirtualTime
import EventScript.Proofs.Maps.Accounting
import EventScript.Proofs.Maps.Filing
import EventScript.Proofs.Maps.Matching
import EventScript.Proofs.Mirroring.Builtins
import EventScript.Proofs.Mirroring.Ending
import EventScript.Proofs.Mirroring.Evaluation
import EventScript.Proofs.Mirroring.ForLoop
import EventScript.Proofs.Mirroring.Heap
import EventScript.Proofs.Mirroring.Intact
import EventScript.Proofs.Mirroring.Pairing
import EventScript.Proofs.Mirroring.Runs
import EventScript.Proofs.Number.Bits
import EventScript.Proofs.Number.Truncation
import EventScript.Proofs.Resolution.Accepted
import EventScript.Proofs.Resolution.Breach
import EventScript.Proofs.Resolution.CallOrder
import EventScript.Proofs.Resolution.Classes
import EventScript.Proofs.Resolution.ControlFlow
import EventScript.Proofs.Resolution.Exactness
import EventScript.Proofs.Resolution.Filed
import EventScript.Proofs.Resolution.Flow
import EventScript.Proofs.Resolution.Inheritance
import EventScript.Proofs.Resolution.LocalScopes
import EventScript.Proofs.Resolution.Origin
import EventScript.Proofs.Resolution.Properties
import EventScript.Proofs.Resolution.Receiver
import EventScript.Proofs.Resolution.Rooted
import EventScript.Proofs.Resolution.Rules
import EventScript.Proofs.Resolution.ScopeNames
import EventScript.Proofs.Resolution.Soundness
import EventScript.Proofs.Resolution.Spans
import EventScript.Proofs.Resolution.StaticSuper
import EventScript.Proofs.Resolution.Stems
import EventScript.Proofs.Resolution.ThisAndSuper
import EventScript.Proofs.Sequences.Calls
import EventScript.Proofs.Sequences.Operations
import EventScript.Proofs.Sequences.Replay
import EventScript.Proofs.Session.Arises
import EventScript.Proofs.Session.CallOrder
import EventScript.Proofs.Session.Callbacks
import EventScript.Proofs.Session.Chains
import EventScript.Proofs.Session.Chronicle
import EventScript.Proofs.Session.Definitions
import EventScript.Proofs.Session.Disciplined
import EventScript.Proofs.Session.Ending
import EventScript.Proofs.Session.History
import EventScript.Proofs.Session.Intact
import EventScript.Proofs.Session.Located
import EventScript.Proofs.Session.Logged
import EventScript.Proofs.Session.Maps
import EventScript.Proofs.Session.Pointing
import EventScript.Proofs.Session.Properties
import EventScript.Proofs.Session.Reached
import EventScript.Proofs.Session.Reporting
import EventScript.Proofs.Session.RunToCompletion
import EventScript.Proofs.Session.ScopeTree
import EventScript.Proofs.Session.Splitting
import EventScript.Proofs.Session.Steps
import EventScript.Proofs.Session.Tracked
import EventScript.Proofs.Session.Waiting
import EventScript.Proofs.Syntax.Bare
import EventScript.Proofs.Syntax.Branches
import EventScript.Proofs.Syntax.Derivation
import EventScript.Proofs.Syntax.ExprComplete
import EventScript.Proofs.Syntax.Extent
import EventScript.Proofs.Syntax.Grammar
import EventScript.Proofs.Syntax.Joined
import EventScript.Proofs.Syntax.Language
import EventScript.Proofs.Syntax.Layout
import EventScript.Proofs.Syntax.Located
import EventScript.Proofs.Syntax.MapSpans
import EventScript.Proofs.Syntax.Names
import EventScript.Proofs.Syntax.Parts
import EventScript.Proofs.Syntax.Phrase
import EventScript.Proofs.Syntax.PieceSpans
import EventScript.Proofs.Syntax.Plain
import EventScript.Proofs.Syntax.Printed
import EventScript.Proofs.Syntax.Reader
import EventScript.Proofs.Syntax.RoundTrip
import EventScript.Proofs.Syntax.Sequel
import EventScript.Proofs.Syntax.Site
import EventScript.Proofs.Syntax.Sound
import EventScript.Proofs.Syntax.StmtComplete
import EventScript.Proofs.Syntax.Taken
import EventScript.Proofs.Token.Gap
import EventScript.Proofs.Token.Joined
import EventScript.Proofs.Token.Lexeme
import EventScript.Proofs.Token.Quotation
import EventScript.Proofs.Token.Segmentation
import EventScript.Proofs.Token.Spaced
import EventScript.Proofs.Value.Equality
import EventScript.Proofs.Value.Rendering
import EventScript.Session
import EventScript.Session.Lines
import EventScript.Span
import EventScript.Store
import EventScript.Syntax
import EventScript.Syntax.Check
import EventScript.Syntax.Parse
import EventScript.Text.Blank
import EventScript.Text.Quoted
import EventScript.Text.Shown
import EventScript.Text.Upper
import EventScript.Token
import EventScript.Token.Scan
import EventScript.Value
import EventScript.Value.Display
