import StructuralEdit.Address.Lines
import StructuralEdit.Address.Position
import StructuralEdit.Address.Raw
import StructuralEdit.Address.Syntax
import StructuralEdit.Buffer.Basic
import StructuralEdit.Buffer.EditLog
import StructuralEdit.Buffer.Timeline
import StructuralEdit.Command.Cursor
import StructuralEdit.Command.Parser
import StructuralEdit.Command.Syntax
import StructuralEdit.Command.Table
import StructuralEdit.Fault
import StructuralEdit.Files.Path
import StructuralEdit.Files.Store
import StructuralEdit.Pattern.Alternation
import StructuralEdit.Pattern.Brackets
import StructuralEdit.Pattern.CharTest
import StructuralEdit.Pattern.Escape
import StructuralEdit.Pattern.Problem
import StructuralEdit.Pattern.Matcher
import StructuralEdit.Pattern.Opening
import StructuralEdit.Pattern.Program
import StructuralEdit.Pattern.Reader
import StructuralEdit.Pattern.Regex
import StructuralEdit.Pattern.Repetition
import StructuralEdit.Pattern.Syntax
import StructuralEdit.Pattern.Token
import StructuralEdit.Process.Runner
import StructuralEdit.Process.Shell
import StructuralEdit.Process.Shell.Arithmetic
import StructuralEdit.Process.Shell.Builtin
import StructuralEdit.Process.Shell.Byte
import StructuralEdit.Process.Shell.Condition
import StructuralEdit.Process.Shell.Escape
import StructuralEdit.Process.Shell.Evaluation
import StructuralEdit.Process.Shell.Expansion
import StructuralEdit.Process.Shell.Field
import StructuralEdit.Process.Shell.Floating
import StructuralEdit.Process.Shell.Format
import StructuralEdit.Process.Shell.Glob
import StructuralEdit.Process.Shell.Integer
import StructuralEdit.Process.Shell.Reader
import StructuralEdit.Process.Shell.Redirect
import StructuralEdit.Process.Shell.Syntax
import StructuralEdit.Process.Shell.Token
import StructuralEdit.Process.Shell.Tool.Amount
import StructuralEdit.Process.Shell.Tool.Basic
import StructuralEdit.Process.Shell.Tool.ByteSet
import StructuralEdit.Process.Shell.Tool.Cat
import StructuralEdit.Process.Shell.Tool.Count
import StructuralEdit.Process.Shell.Tool.Echo
import StructuralEdit.Process.Shell.Tool.Options
import StructuralEdit.Process.Shell.Tool.Order
import StructuralEdit.Process.Shell.Tool.Quoting
import StructuralEdit.Process.Shell.Tool.Sort
import StructuralEdit.Process.Shell.Tool.SortOptions
import StructuralEdit.Process.Shell.Tool.Translate
import StructuralEdit.Process.Shell.Toolbox
import StructuralEdit.Process.Shell.World
import StructuralEdit.Proofs.Buffer.Commit
import StructuralEdit.Proofs.Buffer.History
import StructuralEdit.Proofs.Buffer.Rollback
import StructuralEdit.Proofs.Buffer.Touch
import StructuralEdit.Proofs.Log.Order
import StructuralEdit.Proofs.Log.Replay
import StructuralEdit.Proofs.Log.Request
import StructuralEdit.Proofs.Log.Simultaneous
import StructuralEdit.Proofs.Outcome
import StructuralEdit.Proofs.Session.Atomic
import StructuralEdit.Proofs.Session.Command
import StructuralEdit.Proofs.Session.History
import StructuralEdit.Proofs.Session.Moves
import StructuralEdit.Proofs.Workspace.Moves
import StructuralEdit.Search.Backward
import StructuralEdit.Search.Forward
import StructuralEdit.Search.Memory
import StructuralEdit.Search.Replacement
import StructuralEdit.Session.Basic
import StructuralEdit.Session.Edit
import StructuralEdit.Session.Execute
import StructuralEdit.Session.FileCommands
import StructuralEdit.Session.Panel
import StructuralEdit.Session.Pipes
import StructuralEdit.Session.Resolve
import StructuralEdit.Settings
import StructuralEdit.Text.Basic
import StructuralEdit.Text.Casing
import StructuralEdit.Text.Decoding
import StructuralEdit.Text.Identifier
import StructuralEdit.Text.Letter
import StructuralEdit.Text.Numeral
import StructuralEdit.Text.Numeric
import StructuralEdit.Text.Printable
import StructuralEdit.Text.Quoted
import StructuralEdit.Text.Utf8
import StructuralEdit.Workspace
import StructuralEdit.Proofs.Buffer.Clean
import StructuralEdit.Proofs.Pattern.Forward
import StructuralEdit.Proofs.Search.Scan
import StructuralEdit.Proofs.Search.Selection
import StructuralEdit.Proofs.Session.Recording
import StructuralEdit.Proofs.Session.Substitution
import StructuralEdit.Proofs.Session.Nest
import StructuralEdit.Proofs.Search.Within
import StructuralEdit.Proofs.Buffer.Dots
import StructuralEdit.Proofs.Session.Dots
import StructuralEdit.Proofs.Session.DotWithin
import StructuralEdit.Proofs.Search.Nearest
import StructuralEdit.Proofs.Search.Wrap
import StructuralEdit.Proofs.Session.Resolution
import StructuralEdit.Proofs.Session.Pending
import StructuralEdit.Proofs.Session.Deeds
import StructuralEdit.Proofs.Session.Calls
import StructuralEdit.Proofs.Session.Lookup
import StructuralEdit.Proofs.Session.Frozen
import StructuralEdit.Proofs.Workspace.Pins
import StructuralEdit.Proofs.Session.Rest
import StructuralEdit.Proofs.Session.CleanRead
import StructuralEdit.Proofs.Files.Later
import StructuralEdit.Proofs.Session.Learning
import StructuralEdit.Proofs.Session.Overwriting
import StructuralEdit.Proofs.Session.Reach
import StructuralEdit.Proofs.Session.Isolation
import StructuralEdit.Proofs.Command.Reading
import StructuralEdit.Proofs.Command.Grammar
import StructuralEdit.Proofs.Command.WellFormed
import StructuralEdit.Proofs.Command.Lookahead
import StructuralEdit.Proofs.Command.Inserted
import StructuralEdit.Proofs.Command.Delimited
import StructuralEdit.Proofs.Search.Complete
import StructuralEdit.Proofs.Session.Loops
import StructuralEdit.Proofs.Buffer.DotMoves
import StructuralEdit.Proofs.Session.Selecting
import StructuralEdit.Proofs.Address.Line
import StructuralEdit.Proofs.Address.Onward
import StructuralEdit.Proofs.Address.Backward
import StructuralEdit.Proofs.Address.Evaluation
import StructuralEdit.Proofs.Address.Inside
import StructuralEdit.Proofs.Address.Extent
import StructuralEdit.Proofs.Command.Written
import StructuralEdit.Proofs.Address.Position
import StructuralEdit.Proofs.Session.Transfer
import StructuralEdit.Proofs.Session.Covering
import StructuralEdit.Proofs.Search.Recency
import StructuralEdit.Proofs.Workspace.Closing
import StructuralEdit.Proofs.Text.Utf8
import StructuralEdit.Proofs.Session.Naming
import StructuralEdit.Proofs.Session.Single
import StructuralEdit.Proofs.Session.Unread
import StructuralEdit.Proofs.Session.Reload
import StructuralEdit.Proofs.Address.Rows
import StructuralEdit.Proofs.Address.Whole
import StructuralEdit.Proofs.Session.Walking
