import ReactiveScopes.Client
import ReactiveScopes.Config
import ReactiveScopes.Directive
import ReactiveScopes.Effect
import ReactiveScopes.Engine
import ReactiveScopes.Expr.Basic
import ReactiveScopes.Expr.Comparison
import ReactiveScopes.Expr.Evaluation
import ReactiveScopes.Expr.Raw
import ReactiveScopes.Expr.Source
import ReactiveScopes.Expr.Value
import ReactiveScopes.Fault
import ReactiveScopes.Handler
import ReactiveScopes.Json.Basic
import ReactiveScopes.Json.Reader
import ReactiveScopes.Json.Relaxed
import ReactiveScopes.Json.Token
import ReactiveScopes.Method
import ReactiveScopes.Method.Argument
import ReactiveScopes.Method.Awaitable
import ReactiveScopes.Method.Bytes
import ReactiveScopes.Method.Face
import ReactiveScopes.Method.Layout
import ReactiveScopes.Method.Number
import ReactiveScopes.Method.Placeholder
import ReactiveScopes.Method.Set
import ReactiveScopes.Method.Text
import ReactiveScopes.Notice
import ReactiveScopes.Number.Binary64
import ReactiveScopes.Number.Places
import ReactiveScopes.Number.Shortest
import ReactiveScopes.Path
import ReactiveScopes.Path.Write
import ReactiveScopes.Queue
import ReactiveScopes.Record.Basic
import ReactiveScopes.Record.Mapping
import ReactiveScopes.Reentrancy
import ReactiveScopes.Run
import ReactiveScopes.Scheduler
import ReactiveScopes.Scope
import ReactiveScopes.Session
import ReactiveScopes.Store.Arithmetic
import ReactiveScopes.Store.Attribute
import ReactiveScopes.Store.Basic
import ReactiveScopes.Store.Comparison
import ReactiveScopes.Store.Display
import ReactiveScopes.Store.Template
import ReactiveScopes.Table
import ReactiveScopes.Task
import ReactiveScopes.Text.Blank
import ReactiveScopes.Text.Casing
import ReactiveScopes.Text.Codec
import ReactiveScopes.Text.Digit
import ReactiveScopes.Text.Encoding
import ReactiveScopes.Text.Letter
import ReactiveScopes.Text.Numeral
import ReactiveScopes.Text.Pieces
import ReactiveScopes.Text.Printable
import ReactiveScopes.Text.Quoted
import ReactiveScopes.Value
import ReactiveScopes.Proofs.History
import ReactiveScopes.Proofs.Machine
import ReactiveScopes.Proofs.Conduct
import ReactiveScopes.Proofs.Conduct.Passes
import ReactiveScopes.Proofs.Conduct.Evaluation
import ReactiveScopes.Proofs.Conduct.Scopes
import ReactiveScopes.Proofs.Conduct.Tasks
import ReactiveScopes.Proofs.Conduct.Runs
import ReactiveScopes.Proofs.Marks
import ReactiveScopes.Proofs.PassStack
import ReactiveScopes.Proofs.Coalescing
import ReactiveScopes.Proofs.Delivery
import ReactiveScopes.Proofs.FailingPost
import ReactiveScopes.Proofs.LoopDelivery
import ReactiveScopes.Proofs.Building
import ReactiveScopes.Proofs.Containment
import ReactiveScopes.Proofs.Fence
import ReactiveScopes.Proofs.Isolation
import ReactiveScopes.Proofs.Resemblance
import ReactiveScopes.Proofs.Parallel
import ReactiveScopes.Proofs.Parallel.Writing
import ReactiveScopes.Proofs.Parallel.Evaluation
import ReactiveScopes.Proofs.Storing
import ReactiveScopes.Proofs.SilentWrite
import ReactiveScopes.Proofs.Privacy
import ReactiveScopes.Proofs.PassCourse
import ReactiveScopes.Proofs.Handled
import ReactiveScopes.Proofs.DestroyedRecord
import ReactiveScopes.Proofs.Datum
import ReactiveScopes.Proofs.Placement
import ReactiveScopes.Proofs.Upkeep
import ReactiveScopes.Proofs.Arrival
import ReactiveScopes.Proofs.Edits
import ReactiveScopes.Proofs.WriteBacks
import ReactiveScopes.Proofs.Renewal
import ReactiveScopes.Proofs.Ends
import ReactiveScopes.Proofs.OwnKeys
import ReactiveScopes.Proofs.Manners
import ReactiveScopes.Proofs.WorkBound
import ReactiveScopes.Proofs.Solo
import ReactiveScopes.Proofs.Orbit
import ReactiveScopes.Proofs.Standstill
import ReactiveScopes.Proofs.Graph
import ReactiveScopes.Proofs.ReadBack
import ReactiveScopes.Proofs.PlainDict
import ReactiveScopes.Proofs.RecordCalls
import ReactiveScopes.Proofs.Merging
import ReactiveScopes.Proofs.Spelling
import ReactiveScopes.Proofs.JsonText
import ReactiveScopes.Proofs.StateText
import ReactiveScopes.Proofs.Shorthand
import ReactiveScopes.Proofs.PausedApps
import ReactiveScopes.Proofs.RightSides
import ReactiveScopes.Proofs.SourceKinds
import ReactiveScopes.Proofs.StateBytes
import ReactiveScopes.Proofs.Registrations
import ReactiveScopes.Proofs.OwnWrites
import ReactiveScopes.Proofs.Audience
import ReactiveScopes.Proofs.Answers
import ReactiveScopes.Proofs.Invocations
import ReactiveScopes.Proofs.ReadOnly
import ReactiveScopes.Proofs.HandlerFaults
import ReactiveScopes.Proofs.RollCall
import ReactiveScopes.Proofs.PostingOrder
import ReactiveScopes.Proofs.Incumbents
import ReactiveScopes.Proofs.Mirrors
import ReactiveScopes.Proofs.Ancestry
import ReactiveScopes.Proofs.Literals
import ReactiveScopes.Proofs.Denotation
