import GridRobot.Collections
import GridRobot.Command.Perform
import GridRobot.Command.Request
import GridRobot.Command.Solved
import GridRobot.Config.Basic
import GridRobot.Config.Reading
import GridRobot.Config.Record
import GridRobot.Console.Display
import GridRobot.Console.GridView
import GridRobot.Console.Report
import GridRobot.Decimal
import GridRobot.Draw
import GridRobot.Grid
import GridRobot.Json.Basic
import GridRobot.Json.Reader
import GridRobot.Main
import GridRobot.Player
import GridRobot.Pose
import GridRobot.Program.Address
import GridRobot.Program.Basic
import GridRobot.Program.Instruction
import GridRobot.Proofs.Command.Solved
import GridRobot.Proofs.Config.Record
import GridRobot.Proofs.Console.GridView
import GridRobot.Proofs.Decimal.Order
import GridRobot.Proofs.Decimal.Rational
import GridRobot.Proofs.Decimal.Rounding
import GridRobot.Proofs.Draw
import GridRobot.Proofs.Grid.Box
import GridRobot.Proofs.Grid.Covers
import GridRobot.Proofs.Grid.Density
import GridRobot.Proofs.Grid.Layout
import GridRobot.Proofs.Grid.Measure
import GridRobot.Proofs.Grid.Motion
import GridRobot.Proofs.Grid.Tiles
import GridRobot.Proofs.Player.Access
import GridRobot.Proofs.Player.Calls
import GridRobot.Proofs.Player.Mirror
import GridRobot.Proofs.Player.Parity
import GridRobot.Proofs.Player.Pause
import GridRobot.Proofs.Player.Seek
import GridRobot.Proofs.Player.Session
import GridRobot.Proofs.Player.Solution
import GridRobot.Proofs.Program.Signature
import GridRobot.Proofs.Program.Spacing
import GridRobot.Proofs.Puzzle.Verification
import GridRobot.Proofs.Record.Codec
import GridRobot.Proofs.Record.Unforeseen
import GridRobot.Proofs.Repair.Blocked
import GridRobot.Proofs.Repair.Edit
import GridRobot.Proofs.Repair.Locality
import GridRobot.Proofs.Repair.Strategies
import GridRobot.Proofs.Run.Access
import GridRobot.Proofs.Run.Budget
import GridRobot.Proofs.Run.Calls
import GridRobot.Proofs.Run.Course
import GridRobot.Proofs.Run.Fetches
import GridRobot.Proofs.Run.Growth
import GridRobot.Proofs.Run.Log
import GridRobot.Proofs.Run.Motion
import GridRobot.Proofs.Run.Necessity
import GridRobot.Proofs.Run.Path
import GridRobot.Proofs.Run.Paving
import GridRobot.Proofs.Run.Reach
import GridRobot.Proofs.Run.Recentred
import GridRobot.Proofs.Run.Record
import GridRobot.Proofs.Run.Replay
import GridRobot.Proofs.Run.Reruns
import GridRobot.Proofs.Run.Retrace
import GridRobot.Proofs.Run.Revisits
import GridRobot.Proofs.Run.Step
import GridRobot.Proofs.Run.Summary
import GridRobot.Proofs.Run.Suppression
import GridRobot.Proofs.Run.Terminal
import GridRobot.Proofs.Run.Transplant
import GridRobot.Proofs.Run.Unreached
import GridRobot.Proofs.Search.Accounts
import GridRobot.Proofs.Search.Candidates
import GridRobot.Proofs.Search.Memo
import GridRobot.Proofs.Search.Step
import GridRobot.Proofs.Search.Success
import GridRobot.Puzzle
import GridRobot.Random
import GridRobot.Record.Fault
import GridRobot.Record.Puzzle
import GridRobot.Repair.Case
import GridRobot.Repair.Policy
import GridRobot.Repair.Strategy
import GridRobot.Run.Evaluation
import GridRobot.Run.Execution
import GridRobot.Search.Basic
import GridRobot.Search.Step
import GridRobot.Settings
import GridRobot.Text.Integer
import GridRobot.Text.Number
import GridRobot.Text.Quoted
