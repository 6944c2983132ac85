import AssassinGame.Foundation.Transition
import AssassinGame.Foundation.Segments
import AssassinGame.Foundation.Ring
import AssassinGame.Foundation.Entries
import AssassinGame.Foundation.Pairing
import AssassinGame.Foundation.Feed
import AssassinGame.Foundation.Interchange
import AssassinGame.Foundation.Contention
import AssassinGame.Foundation.Draws
import AssassinGame.Firebase.Firestore
import AssassinGame.Firebase.Action
import AssassinGame.Model.Player
import AssassinGame.Model.RoomNumGenerator
import AssassinGame.Model.Game
import AssassinGame.Model.DatabaseController
import AssassinGame.Controller.CreateGameVC
import AssassinGame.Controller.JoinGameVC
import AssassinGame.Controller.WaitingVC
import AssassinGame.Controller.TabBarVC
import AssassinGame.World
import AssassinGame.App
import AssassinGame.Rooms.Requests
import AssassinGame.Rooms.Isolation
import AssassinGame.Rooms.Counter
import AssassinGame.Rooms.Opening
import AssassinGame.Rooms.Players
import AssassinGame.Rooms.Progress
import AssassinGame.Rooms.Solo
import AssassinGame.Rooms.Draining
import AssassinGame.Rooms.Serial
import AssassinGame.Rooms.Object
import AssassinGame.Rooms.Contending
import AssassinGame.Rooms.Provenance
import AssassinGame.Rooms.Ordering
import AssassinGame.Rooms.Completion
import AssassinGame.Rooms.Numbering
import AssassinGame.Rooms.Registering
import AssassinGame.Rooms.Accounting
import AssassinGame.Rooms.Confirming
import AssassinGame.Rooms.Entrants
import AssassinGame.Rooms.Filling
import AssassinGame.Rooms.EarlyStart
import AssassinGame.Rooms.Capacity
import AssassinGame.Rooms.Collision
import AssassinGame.Rooms.Balance
import AssassinGame.Rooms.Ledger
import AssassinGame.Rooms.LostUpdate
import AssassinGame.Rooms.Joining
import AssassinGame.Rooms.Phones
import AssassinGame.Rooms.PlayerName
import AssassinGame.Rooms.Attempts
import AssassinGame.Rooms.Waiting
import AssassinGame.Targets.Assignment
import AssassinGame.Targets.Cycle
import AssassinGame.Targets.Roster
import AssassinGame.Targets.Selection
import AssassinGame.Targets.SavedKillshot
import AssassinGame.Targets.Stability
import AssassinGame.Targets.Card
import AssassinGame.Targets.Killshots
import AssassinGame.Targets.Judging
import AssassinGame.Targets.Opponents
import AssassinGame.Targets.Chances
import AssassinGame.Rooms.Schema
import AssassinGame.Rooms.Starting
import AssassinGame.Rooms.Usage
