import NumberBaseball.Game.World

/-!
# `Game.Client` — what runs on a player's machine

A client has replicas of its own controller, of the player state and of the game state; the widgets its
controller creates in `BeginPlay`; and what the controller has printed (the pawn's debugging lines are not
kept). What a player types does not reach the server as it is: `SetChatMessageString` puts the player's name
and count, as the replica has them, in front. The line goes through `ServerRPCPrintChatMessageString` to the
handler of the game mode, which is a `chat` event of the server.

The bodies of the calls the server makes run here, too. Each function is the source's, from client to client.
-/

namespace NumberBaseball

/-- `AHwPlayerState::GetPlayerInfoString`. -/
def HwPlayerState.getPlayerInfoString (ps : HwPlayerState) : FString :=
  ps.playerNameString ++ text "(" ++ fromInt ps.currentGuessCount ++ text "/" ++
    fromInt ps.maxGuessCount ++ text ")"

/-- `AHwPlayerController::SetChatMessageString`: the line that is sent to the server, if one is. The text
    is also kept in `ChatMessageString`, which nothing reads. -/
def HwPlayerController.setChatMessageString (isLocalController : Bool) (c : HwPlayerController)
    (inChatMessageString : FString) : Option FString :=
  if isLocalController then
    match c.playerState with
    | some cxps => some (cxps.getPlayerInfoString ++ text ": " ++ inChatMessageString)
    | none      => none
  else none

/-! ## The chat box -/

/-- `ETextCommit::Type`: how a text box was left. -/
inductive ETextCommit where
  | default
  | onEnter
  | onUserMovedFocus
  | onCleared
deriving DecidableEq, Repr

/-- `UHwChatInput`: the text in `EditableTextBox_ChatInput`, and how often `OnChatInputTextCommitted` is
    bound to its `OnTextCommitted`. -/
structure HwChatInput where
  editableTextBox : FString
  bindings        : Nat
deriving DecidableEq, Repr

/-- `OnTextCommitted.IsAlreadyBound(this, &ThisClass::OnChatInputTextCommitted)`. -/
def HwChatInput.isAlreadyBound (w : HwChatInput) : Bool := decide (0 < w.bindings)

/-- `UHwChatInput::NativeConstruct`. -/
def HwChatInput.nativeConstruct (w : HwChatInput) : HwChatInput :=
  if w.isAlreadyBound = false then { w with bindings := w.bindings + 1 } else w

/-- `UHwChatInput::NativeDestruct`. -/
def HwChatInput.nativeDestruct (w : HwChatInput) : HwChatInput :=
  if w.isAlreadyBound = true then { w with bindings := w.bindings - 1 } else w

/-! ## The client -/

/-- `ENetMode`. -/
inductive ENetMode where
  | standalone
  | dedicatedServer
  | listenServer
  | client
deriving DecidableEq, Repr

/-- The widget classes a blueprint of the controller names, where it names one. Of the timer widget the
    class says which text its text block `Timer` starts with, if there is such a block. -/
structure WidgetClasses where
  chatInputWidgetClass : Bool
  timerTextWidgetClass : Option (Option FString)
deriving DecidableEq, Repr

/-- A player's machine. Its controller is a replica, which is not valid before it has arrived; so are the
    player state in it, and `RemainingTime`, the one field of the game state that is replicated. -/
structure Client where
  netMode                 : ENetMode
  isLocalController       : Bool
  controller              : HwPlayerController
  remainingTime           : Option Int
  begunPlay               : Bool
  chatInputWidgetInstance : Option HwChatInput
  timerTextWidgetInstance : Option (Option FString)
  screen                  : List FString
  log                     : List FString
deriving DecidableEq, Repr

/-- The machine of a player who has just joined: nothing has arrived. -/
def Client.new : Client where
  netMode                 := .client
  isLocalController       := true
  controller              := { isValid := false, notificationText := [], playerState := none }
  remainingTime           := none
  begunPlay               := false
  chatInputWidgetInstance := none
  timerTextWidgetInstance := none
  screen                  := []
  log                     := []

/-- `ChatXFunctionLibrary::MyPrintString`: on the screen of a client or of the host of a listen server,
    elsewhere into the log. -/
def Client.myPrintString (inString : FString) (c : Client) : Client :=
  if c.netMode = .client ∨ c.netMode = .listenServer then { c with screen := c.screen ++ [inString] }
  else { c with log := c.log ++ [inString] }

/-- `AHwPlayerController::PrintChatMessageString`, also `ClientRPCPrintChatMessageString_Implementation`. -/
def Client.printChatMessageString (inChatMessageString : FString) (c : Client) : Client :=
  if c.isLocalController = false then c else c.myPrintString inChatMessageString

/-- `AHwPlayerController::ClientRPCTimerUiUpdate_Implementation`. The timer widget is used without a check
    that there is one. -/
def Client.clientRPCTimerUiUpdate (c : Client) : Except Fault Client :=
  if c.isLocalController = false then .ok c
  else
    match c.remainingTime with
    | none               => .ok c
    | some remainingTime =>
        match c.timerTextWidgetInstance with
        | none          => .error .invalidPointer
        | some none     =>
            .ok { c with log := c.log ++
              [text "위젯 안에서 'Timer'라는 이름의 텍스트 블록을 찾을 수 없습니다!"] }
        | some (some _) =>
            .ok { c with
              timerTextWidgetInstance := some (some (text "Time : " ++ fromInt remainingTime)) }

/-- `AHwGameStateBase::MulticastRPCBroadcastLoginMessage_Implementation`. -/
def Client.multicastRPCBroadcastLoginMessage (hasAuthority : Bool) (inNameString : FString)
    (c : Client) : Client :=
  if hasAuthority = false then
    if c.controller.isValid then
      c.printChatMessageString (inNameString ++ text " has joined the game.")
    else c
  else c

/-- The call `call` runs on a client, which has authority over nothing. -/
def Client.execute (c : Client) : Rpc → Except Fault Client
  | .clientRPCPrintChatMessageString _ msg  => .ok (c.printChatMessageString msg)
  | .clientRPCTimerUiUpdate _               => c.clientRPCTimerUiUpdate
  | .multicastRPCBroadcastLoginMessage name => .ok (c.multicastRPCBroadcastLoginMessage false name)

/-- `AHwPlayerController::BeginPlay`. Adding the chat box to the viewport constructs it. What is in the
    notification widget is left to its blueprint. -/
def Client.beginPlay (classes : WidgetClasses) (c : Client) : Client :=
  if c.isLocalController = false then { c with begunPlay := true }
  else
    { c with
      begunPlay := true
      chatInputWidgetInstance :=
        if classes.chatInputWidgetClass then
          some (HwChatInput.nativeConstruct { editableTextBox := [], bindings := 0 })
        else c.chatInputWidgetInstance
      timerTextWidgetInstance :=
        match classes.timerTextWidgetClass with
        | some timer => some timer
        | none       => c.timerTextWidgetInstance }

/-- `UHwChatInput::OnChatInputTextCommitted`, on the client that owns the box; and the lines sent to the
    server. -/
def Client.onChatInputTextCommitted (inText : FString) (commitMethod : ETextCommit) (c : Client) :
    Client × List FString :=
  if commitMethod = .onEnter then
    if c.controller.isValid then
      ({ c with chatInputWidgetInstance :=
          c.chatInputWidgetInstance.map fun w => { w with editableTextBox := [] } },
        (c.controller.setChatMessageString c.isLocalController inText).toList)
    else (c, [])
  else (c, [])

/-- `OnTextCommitted.Broadcast`, with `left` bindings to call. -/
def commitLoop (inText : FString) (commitMethod : ETextCommit) : Nat → Client → Client × List FString
  | 0,        c => (c, [])
  | left + 1, c =>
      let (c, lines) := c.onChatInputTextCommitted inText commitMethod
      let (c, more)  := commitLoop inText commitMethod left c
      (c, lines ++ more)

/-- The player leaves the text box: every binding is called with the text in it. -/
def Client.textCommitted (commitMethod : ETextCommit) (c : Client) : Client × List FString :=
  match c.chatInputWidgetInstance with
  | none   => (c, [])
  | some w => commitLoop w.editableTextBox commitMethod w.bindings c

/-! ## Replication -/

/-- The actors whose properties a client is sent. -/
inductive Replicated where
  | controller
  | playerState
  | gameState
deriving DecidableEq, Repr

/-- The replicated properties of an actor, as `GetLifetimeReplicatedProps` lists them, on their way to a
    client. -/
inductive Update where
  | controller (notificationText : FString)
  | playerState (ps : HwPlayerState)
  | gameState (remainingTime : Int)
deriving DecidableEq, Repr

/-- An update arrives; the first one of an actor creates the actor. -/
def Client.receiveUpdate (c : Client) : Update → Client
  | .controller notificationText =>
      { c with controller := { c.controller with isValid := true, notificationText := notificationText } }
  | .playerState ps              => { c with controller := { c.controller with playerState := some ps } }
  | .gameState remainingTime     => { c with remainingTime := some remainingTime }

end NumberBaseball
