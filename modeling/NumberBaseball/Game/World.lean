import NumberBaseball.Game.Engine

/-!
# `Game.World` — the server's state

One record for everything the handlers of the game mode read and write: the mode's own fields, the
controllers it has collected with their player states, the clock of the game state, the random
stream, and the remote calls sent so far. `OnPostLogin` is the only writer of `AllPlayerControllers`
and adds each controller once, so the array doubles as the store of controllers: a pointer to a
controller is its position, and two pointers are equal when their positions are.

The engine spawns the game state together with the mode, so the source's `IsValid(GS)` guards always
pass and the clock is a plain field.
-/

namespace NumberBaseball

/-- `AHwPlayerState`: the fields the game reads. -/
structure HwPlayerState where
  playerNameString  : FString
  currentGuessCount : Int
  maxGuessCount     : Int
deriving DecidableEq, Repr

/-- The constructor `AHwPlayerState::AHwPlayerState`. -/
def HwPlayerState.new : HwPlayerState where
  playerNameString  := text "None"
  currentGuessCount := 0
  maxGuessCount     := 3

/-- `AHwPlayerController`: what `IsValid` says of it, its replicated text and its player state, which
    may be absent. -/
structure HwPlayerController where
  isValid          : Bool
  notificationText : FString
  playerState      : Option HwPlayerState
deriving DecidableEq, Repr

/-- The remote calls the server makes. -/
inductive Rpc where
  | clientRPCPrintChatMessageString (pc : Nat) (inChatMessageString : FString)
  | clientRPCTimerUiUpdate (pc : Nat)
  | multicastRPCBroadcastLoginMessage (inNameString : FString)
deriving DecidableEq, Repr

/-- The state of the server. `secretsGenerated` counts the calls of `GenerateSecretNumber`; it is
    bookkeeping for statements about rounds, and no handler reads it. -/
structure World where
  secretNumberString     : FString
  allPlayerControllers   : List HwPlayerController
  currentTurnIndex       : Int
  bHasActedInCurrentTurn : Bool
  remainingTime          : Int
  random                 : RandomStream
  secretsGenerated       : Nat
  sent                   : List Rpc

/-- `AHwGameStateBase::TurnTime`. -/
def turnTime : Int := 15

/-- The server before anybody has logged in and before `BeginPlay`. -/
def World.boot (random : RandomStream) : World where
  secretNumberString     := []
  allPlayerControllers   := []
  currentTurnIndex       := 0
  bHasActedInCurrentTurn := false
  remainingTime          := 15
  random                 := random
  secretsGenerated       := 0
  sent                   := []

/-! ## Access to controllers -/

/-- The controller a pointer points to. -/
def World.deref (s : World) (pc : Nat) : Except Fault HwPlayerController :=
  match s.allPlayerControllers[pc]? with
  | some c => .ok c
  | none   => .error .invalidPointer

/-- The pointer `AllPlayerControllers[i]`, range-checked. -/
def World.controllerAt (s : World) (i : Int) : Except Fault Nat :=
  arrayAt (List.range s.allPlayerControllers.length) i

/-- `PC->GetPlayerState<AHwPlayerState>()`: through a destroyed controller it does what `acc` says. -/
def getPlayerState (acc : DeadAccess) (c : HwPlayerController) :
    Except Fault (Option HwPlayerState) :=
  if c.isValid then .ok c.playerState
  else
    match acc with
    | .yieldsNull => .ok none
    | .faults     => .error .invalidPointer

/-- A write through the pointer `pc`. -/
def World.modify (s : World) (pc : Nat) (f : HwPlayerController → HwPlayerController) :
    World :=
  { s with allPlayerControllers := s.allPlayerControllers.modify pc f }

/-- A write to the player state `ps` that `pc` was found to have. -/
def World.setPlayerState (s : World) (pc : Nat) (ps : HwPlayerState) : World :=
  s.modify pc (fun c => { c with playerState := some ps })

/-! ## Remote calls and the two loops over all controllers -/

/-- The pointers of the valid controllers of a list that starts at position `i`. -/
def validRefs : Nat → List HwPlayerController → List Nat
  | _, []      => []
  | i, c :: cs => if c.isValid then i :: validRefs (i + 1) cs else validRefs (i + 1) cs

/-- `for (PC : AllPlayerControllers) if (IsValid(PC)) PC->ClientRPCPrintChatMessageString(msg)`. -/
def World.broadcast (s : World) (msg : FString) : World :=
  { s with sent := s.sent ++
      (validRefs 0 s.allPlayerControllers).map (.clientRPCPrintChatMessageString · msg) }

/-- `if (IsValid(PC)) PC->NotificationText = msg`. -/
def HwPlayerController.notified (msg : FString) (c : HwPlayerController) : HwPlayerController :=
  if c.isValid then { c with notificationText := msg } else c

/-- `for (PC : AllPlayerControllers) if (IsValid(PC)) PC->NotificationText = msg`. -/
def World.notify (s : World) (msg : FString) : World :=
  { s with allPlayerControllers := s.allPlayerControllers.map (·.notified msg) }

/-- `PC->ClientRPCPrintChatMessageString(msg)` with no guard around it. -/
def World.sendTo (acc : DeadAccess) (s : World) (pc : Nat) (msg : FString) :
    Except Fault World := do
  let c ← s.deref pc
  if c.isValid then .ok { s with sent := s.sent ++ [.clientRPCPrintChatMessageString pc msg] }
  else
    match acc with
    | .yieldsNull => .ok s
    | .faults     => .error .invalidPointer

/-- `GS->ResetTime()`. -/
def World.resetTime (s : World) : World := { s with remainingTime := turnTime }

end NumberBaseball
