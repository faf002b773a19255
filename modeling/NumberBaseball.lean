import NumberBaseball.Lib.Machine
import NumberBaseball.Lib.Channel
import NumberBaseball.Lib.RoundRobin
import NumberBaseball.Lib.Laps
import NumberBaseball.Lib.Draw
import NumberBaseball.Game.Engine
import NumberBaseball.Game.Numbers
import NumberBaseball.Game.World
import NumberBaseball.Game.Mode
import NumberBaseball.Game.Events
import NumberBaseball.Game.Client
import NumberBaseball.Game.Network
import NumberBaseball.Correctness.Numbers
import NumberBaseball.Correctness.Verdict
import NumberBaseball.Correctness.Handlers
import NumberBaseball.Correctness.Moves
import NumberBaseball.Correctness.Invariant
import NumberBaseball.Correctness.ChatLine
import NumberBaseball.Correctness.Turns
import NumberBaseball.Correctness.TwoRuns
import NumberBaseball.Correctness.Rounds
import NumberBaseball.Correctness.Outcome
import NumberBaseball.Correctness.DeadSeats
import NumberBaseball.Correctness.DeadAccess
import NumberBaseball.Correctness.Announcements
import NumberBaseball.Correctness.Rotation
import NumberBaseball.Correctness.Attempts
import NumberBaseball.Correctness.Latecomers
import NumberBaseball.Correctness.Progress
import NumberBaseball.Correctness.Secrets
import NumberBaseball.Correctness.Calls
import NumberBaseball.Correctness.Network
import NumberBaseball.Correctness.Delivery
import NumberBaseball.Correctness.Guesses
import NumberBaseball.Correctness.Replicas
import NumberBaseball.Correctness.Screens
import NumberBaseball.Correctness.Convergence
