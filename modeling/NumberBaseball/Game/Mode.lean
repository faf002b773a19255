import NumberBaseball.Game.World
import NumberBaseball.Game.Numbers

/-!
# `Game.Mode` — the handlers of `AHWGameModeBase`

Each handler as the source computes it, branch by branch, from state to state; the nesting of calls is
the source's (a guess or an expired turn enters `JudgeGame`, which enters `ResetGame`, and the caller
goes on with `TurnToNextPlayer`). `acc` is what an unguarded access through a destroyed controller
does. A handler that dies returns the fault it died of.
-/

namespace NumberBaseball

/-- `AHWGameModeBase::BeginPlay`. The timer it sets calls `UpdateGameTimer` once a second. -/
def beginPlay (s : World) : Except Fault World := do
  let (secret, random) ← generateSecretNumber s.random
  .ok { s with
    secretNumberString     := secret
    random                 := random
    secretsGenerated       := s.secretsGenerated + 1
    currentTurnIndex       := 0
    bHasActedInCurrentTurn := false }

/-- `AHWGameModeBase::IncreaseGuessCount`. -/
def increaseGuessCount (acc : DeadAccess) (inChattingPlayerController : Nat) (s : World) :
    Except Fault World := do
  let c ← s.deref inChattingPlayerController
  match ← getPlayerState acc c with
  | some cxps =>
      .ok (s.setPlayerState inChattingPlayerController
        { cxps with currentGuessCount := cxps.currentGuessCount + 1 })
  | none => .ok s

/-- The loop of `ResetGame` over the controllers from position `i` on. The announcement is inside it:
    it is sent once for every player state found, and prints the count that has just been cleared. -/
def resetGameLoop (acc : DeadAccess) :
    Nat → List HwPlayerController → World → Except Fault World
  | _, [],      s => .ok s
  | i, c :: cs, s => do
      match ← getPlayerState acc c with
      | some cxps =>
          let cxps := { cxps with currentGuessCount := 0 }
          let s := s.setPlayerState i cxps
          let s := s.broadcast
            (text "It's Player " ++ fromInt (cxps.currentGuessCount + 1) ++ text "'s turn!")
          resetGameLoop acc (i + 1) cs s
      | none => resetGameLoop acc (i + 1) cs s

/-- `AHWGameModeBase::ResetGame`. -/
def resetGame (acc : DeadAccess) (s : World) : Except Fault World := do
  let s := { s with currentTurnIndex := 0, bHasActedInCurrentTurn := false }
  let (secret, random) ← generateSecretNumber s.random
  let s := { s with
    secretNumberString := secret
    random             := random
    secretsGenerated   := s.secretsGenerated + 1 }
  resetGameLoop acc 0 s.allPlayerControllers s

/-- The draw scan of `JudgeGame`: it stops at the first player with an attempt left. -/
def drawLoop (acc : DeadAccess) : List HwPlayerController → Except Fault Bool
  | []      => .ok true
  | c :: cs => do
      match ← getPlayerState acc c with
      | some ps => if ps.currentGuessCount < ps.maxGuessCount then .ok false else drawLoop acc cs
      | none    => drawLoop acc cs

/-- `AHWGameModeBase::JudgeGame`. -/
def judgeGame (acc : DeadAccess) (inChattingPlayerController : Nat) (inStrikeCount : Int)
    (s : World) : Except Fault World := do
  if inStrikeCount = 3 then
    let c ← s.deref inChattingPlayerController
    match ← getPlayerState acc c with
    | some winnerPS =>
        resetGame acc (s.notify (winnerPS.playerNameString ++ text " has won the game."))
    | none => resetGame acc s
  else
    let bIsDraw ← drawLoop acc s.allPlayerControllers
    if bIsDraw then resetGame acc (s.notify (text "Draw"))
    else .ok s

/-- `AHWGameModeBase::TurnToNextPlayer`. -/
def turnToNextPlayer (acc : DeadAccess) (s : World) : Except Fault World := do
  if s.allPlayerControllers.length = 0 then .ok s
  else
    let index ← intMod (s.currentTurnIndex + 1) s.allPlayerControllers.length
    let s := { s with currentTurnIndex := index, bHasActedInCurrentTurn := false }
    let s := s.resetTime
    if isValidIndex s.allPlayerControllers s.currentTurnIndex then
      let nextPC ← s.controllerAt s.currentTurnIndex
      -- an entry of the array is never a null pointer, so the source's `NextPC ?` always reads it
      let c ← s.deref nextPC
      match ← getPlayerState acc c with
      | some ps =>
          .ok (s.broadcast (text "It's " ++ ps.playerNameString ++ text "'s turn!"))
      | none => .ok s
    else .ok s

/-- `AHWGameModeBase::PrintChatMessageString`. -/
def printChatMessageString (acc : DeadAccess) (inChattingPlayerController : Nat)
    (inChatMessageString : FString) (s : World) : Except Fault World := do
  if isValidIndex s.allPlayerControllers s.currentTurnIndex = false then .ok s
  else
    let index : Int := inChatMessageString.length - 3
    let guessNumberString := rightChop inChatMessageString index
    let bIsGuessNumber := isGuessNumberString guessNumberString
    let turnHolder ← s.controllerAt s.currentTurnIndex
    if inChattingPlayerController ≠ turnHolder then
      if bIsGuessNumber then
        s.sendTo acc inChattingPlayerController (text "아직 당신의 턴이 아닙니다!")
      else .ok (s.broadcast inChatMessageString)
    else if bIsGuessNumber then
      let s := { s with bHasActedInCurrentTurn := true }
      let judgeResultString ← judgeResult s.secretNumberString guessNumberString
      let s ← increaseGuessCount acc inChattingPlayerController s
      let s := s.broadcast (inChatMessageString ++ text " -> " ++ judgeResultString)
      if equals guessNumberString s.secretNumberString then
        judgeGame acc inChattingPlayerController 3 s
      else
        let s ← judgeGame acc inChattingPlayerController 0 s
        turnToNextPlayer acc s
    else .ok (s.broadcast inChatMessageString)

/-- `AHWGameModeBase::UpdateGameTimer`. The actor iterator of the countdown branch visits the
    controllers of the world, which are those that have logged in. -/
def updateGameTimer (acc : DeadAccess) (s : World) : Except Fault World := do
  if s.remainingTime ≤ 0 then
    if !s.bHasActedInCurrentTurn && isValidIndex s.allPlayerControllers s.currentTurnIndex then
      let currentPC ← s.controllerAt s.currentTurnIndex
      let c ← s.deref currentPC
      if c.isValid then
        let s ← increaseGuessCount acc currentPC s
        let s ← s.sendTo acc currentPC (text " 시간 초과로 인해 기회가 1회 차감됩니다!")
        let s ← judgeGame acc currentPC 0 s
        let s ← turnToNextPlayer acc s
        .ok s.resetTime
      else .ok s.resetTime
    else .ok s
  else
    let s := { s with remainingTime := s.remainingTime - 1 }
    .ok { s with sent := s.sent ++
      (validRefs 0 s.allPlayerControllers).map .clientRPCTimerUiUpdate }

/-- `AHWGameModeBase::OnPostLogin`; the argument is what the cast to `AHwPlayerController` returns.
    The name is read through the player state without a check when the login is announced. -/
def onPostLogin (acc : DeadAccess) (newPlayer : Option HwPlayerController) (s : World) :
    Except Fault World := do
  match newPlayer with
  | none   => .ok s
  | some c =>
      if c.isValid then
        let c := { c with notificationText := text "Connected to the game server." }
        let pc := s.allPlayerControllers.length
        let s := { s with allPlayerControllers := s.allPlayerControllers ++ [c] }
        match ← getPlayerState acc c with
        | some cxps =>
            let cxps := { cxps with
              playerNameString := text "Player" ++ fromInt s.allPlayerControllers.length }
            let s := s.setPlayerState pc cxps
            .ok { s with sent := s.sent ++
              [.multicastRPCBroadcastLoginMessage cxps.playerNameString] }
        | none => .error .invalidPointer
      else .ok s

end NumberBaseball
