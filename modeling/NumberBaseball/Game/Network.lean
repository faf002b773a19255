import NumberBaseball.Game.Client
import NumberBaseball.Game.Events
import NumberBaseball.Lib.Channel

/-!
# `Game.Network` — the server, the clients and what is under way between them

A dedicated server and the machines of the players who have joined it. Every remote call of the game is
declared `Reliable`: the calls made through one actor arrive in the order they were made, none is lost,
and the channel of an actor opens with the actor itself. So a player's connection carries one channel to
the server and two from it, the controller's and the game state's, and nothing is said about the order
between the two. Replicated properties travel on their own, and an update may be lost.

`network acc classes` is the machine of the whole; what reaches the server in one of its steps is
`serverEvent`.
-/

namespace NumberBaseball

/-- The controller a call is made through; a login message is made through the game state. -/
def Rpc.owner : Rpc → Option Nat
  | .clientRPCPrintChatMessageString pc _ => some pc
  | .clientRPCTimerUiUpdate pc            => some pc
  | .multicastRPCBroadcastLoginMessage _  => none

/-! ## One connection -/

/-- A player's machine, and what is under way between it and the server. -/
structure Link where
  client         : Client
  toServer       : Channel FString
  fromController : Channel Rpc
  fromGameState  : Channel Rpc
  updates        : List Update
deriving DecidableEq, Repr

/-- What happens on a player's machine, or reaches it. -/
inductive LinkEvent where
  | beginPlay
  | edit (inText : FString)
  | commit (commitMethod : ETextCommit)
  | nativeConstruct
  | nativeDestruct
  | controllerCall
  | gameStateCall
  | update
  | lostUpdate
deriving DecidableEq, Repr

namespace Link

/-- The connection of a player who has just joined. -/
def new : Link where
  client         := Client.new
  toServer       := .empty
  fromController := .empty
  fromGameState  := .empty
  updates        := []

/-- Of the calls the server makes, those for the player `pc` are put under way. -/
def call (pc : Nat) (calls : List Rpc) (l : Link) : Link :=
  { l with
    fromController := l.fromController.send (calls.filter (·.owner == some pc))
    fromGameState  := l.fromGameState.send (calls.filter (·.owner == none)) }

/-- What can happen: a controller begins play once, after it has arrived; a call comes to an actor that
    has arrived; the chat box is used when there is one. -/
def admits (l : Link) : LinkEvent → Bool
  | .beginPlay       => l.client.controller.isValid && !l.client.begunPlay
  | .edit _          => l.client.chatInputWidgetInstance.isSome
  | .commit _        => l.client.chatInputWidgetInstance.isSome
  | .nativeConstruct => l.client.chatInputWidgetInstance.isSome
  | .nativeDestruct  => l.client.chatInputWidgetInstance.isSome
  | .controllerCall  => l.client.controller.isValid && !l.fromController.inFlight.isEmpty
  | .gameStateCall   => l.client.remainingTime.isSome && !l.fromGameState.inFlight.isEmpty
  | .update          => !l.updates.isEmpty
  | .lostUpdate      => !l.updates.isEmpty

/-- A rewrite of the chat box. -/
def modifyChatInput (f : HwChatInput → HwChatInput) (l : Link) : Link :=
  { l with client := { l.client with
      chatInputWidgetInstance := l.client.chatInputWidgetInstance.map f } }

/-- The player leaves the chat box, and what that sends is put under way. -/
def commit (commitMethod : ETextCommit) (l : Link) : Link :=
  { l with
    client   := (l.client.textCommitted commitMethod).1
    toServer := l.toServer.send (l.client.textCommitted commitMethod).2 }

/-- The step of one machine. -/
def step (classes : WidgetClasses) (l : Link) : LinkEvent → Except Fault Link
  | .beginPlay           => .ok { l with client := l.client.beginPlay classes }
  | .edit inText         => .ok (l.modifyChatInput fun w => { w with editableTextBox := inText })
  | .commit commitMethod => .ok (l.commit commitMethod)
  | .nativeConstruct     => .ok (l.modifyChatInput HwChatInput.nativeConstruct)
  | .nativeDestruct      => .ok (l.modifyChatInput HwChatInput.nativeDestruct)
  | .controllerCall      =>
      match l.fromController.receive with
      | none            => .ok l
      | some (call, ch) => do
          let c ← l.client.execute call
          .ok { l with client := c, fromController := ch }
  | .gameStateCall       =>
      match l.fromGameState.receive with
      | none            => .ok l
      | some (call, ch) => do
          let c ← l.client.execute call
          .ok { l with client := c, fromGameState := ch }
  | .update              =>
      match l.updates with
      | []      => .ok l
      | u :: us => .ok { l with client := l.client.receiveUpdate u, updates := us }
  | .lostUpdate          => .ok { l with updates := l.updates.tail }

end Link

/-! ## The whole -/

/-- The server, whether `BeginPlay` has run, and the connections, at the positions of the controllers. -/
structure Network where
  server : World
  begun  : Bool
  links  : List Link

/-- What happens anywhere. A login says whether the connection is up when the login message goes out. -/
inductive NetEvent where
  | beginPlay
  | login (hasPlayerState reachesNewcomer : Bool)
  | logout (pc : Nat)
  | tick
  | chatCall (pc : Nat)
  | replicate (pc : Nat) (actor : Replicated)
  | link (pc : Nat) (e : LinkEvent)
deriving DecidableEq, Repr

/-- The properties an actor has on the server, for the client of `pc`. -/
def World.snapshot (s : World) (pc : Nat) : Replicated → Option Update
  | .controller  => s.allPlayerControllers[pc]?.map fun c => .controller c.notificationText
  | .playerState => (s.allPlayerControllers[pc]?.bind fun c => c.playerState).map .playerState
  | .gameState   => some (.gameState s.remainingTime)

namespace Network

/-- The connection of `pc` becomes `l`. -/
def setLink (n : Network) (pc : Nat) (l : Link) : Network := { n with links := n.links.set pc l }

/-- The server goes on to `s`, and the calls it has made on the way are put under way. -/
def serve (n : Network) (s : World) : Network :=
  { n with
    server := s
    links  := n.links.mapIdx fun pc l =>
      if s.isConnected pc then l.call pc (s.sent.drop n.server.sent.length) else l }

/-- The connection of the newcomer, for whom the login message may go out too early. -/
def newcomer (n : Network) (s : World) (reachesNewcomer : Bool) : Link :=
  if reachesNewcomer then Link.new.call n.links.length (s.sent.drop n.server.sent.length)
  else Link.new

/-- What can happen; a connection that has been closed carries nothing. -/
def admits (n : Network) : NetEvent → Bool
  | .beginPlay      => !n.begun
  | .login _ _      => true
  | .logout pc      => n.server.isConnected pc
  | .tick           => n.begun
  | .chatCall pc    => n.begun && n.server.isConnected pc &&
      n.links[pc]?.any fun l => !l.toServer.inFlight.isEmpty
  | .replicate pc _ => n.server.isConnected pc
  | .link pc e      => n.server.isConnected pc && n.links[pc]?.any (·.admits e)

/-- One step. `ServerRPCPrintChatMessageString_Implementation` hands the line to the game mode. -/
def step (acc : DeadAccess) (classes : WidgetClasses) (n : Network) : NetEvent → Except Fault Network
  | .beginPlay => do
      let s ← NumberBaseball.beginPlay n.server
      .ok { n with server := s, begun := true }
  | .login hasPlayerState reachesNewcomer => do
      let s ← handle acc n.server (.login hasPlayerState)
      .ok { n.serve s with links := (n.serve s).links ++ [n.newcomer s reachesNewcomer] }
  | .logout pc => do
      let s ← handle acc n.server (.logout pc)
      .ok (n.serve s)
  | .tick => do
      let s ← handle acc n.server .tick
      .ok (n.serve s)
  | .chatCall pc =>
      match n.links[pc]? with
      | none   => .ok n
      | some l =>
          match l.toServer.receive with
          | none            => .ok n
          | some (line, ch) => do
              let s ← handle acc n.server (.chat pc line)
              .ok ((n.setLink pc { l with toServer := ch }).serve s)
  | .replicate pc actor =>
      .ok { n with links := n.links.modify pc fun l =>
        { l with updates := l.updates ++ (n.server.snapshot pc actor).toList } }
  | .link pc e =>
      match n.links[pc]? with
      | none   => .ok n
      | some l => do
          let l ← l.step classes e
          .ok (n.setLink pc l)

/-- A server that has just been started. -/
def boot (random : RandomStream) : Network := ⟨World.boot random, false, []⟩

/-- What reaches the server in a step. -/
def serverEvent (n : Network) : NetEvent → Option Event
  | .login hasPlayerState _ => some (.login hasPlayerState)
  | .logout pc              => some (.logout pc)
  | .tick                   => some .tick
  | .chatCall pc            => (n.links[pc]?.bind fun l => l.toServer.inFlight.head?).map (.chat pc)
  | _                       => none

end Network

/-- The machine of server and clients, whose clients all have the widget classes `classes`. -/
def network (acc : DeadAccess) (classes : WidgetClasses) : Machine Network NetEvent Fault where
  init n      := ∃ random, n = Network.boot random
  allowed n e := n.admits e = true
  step        := Network.step acc classes

instance {acc : DeadAccess} {classes : WidgetClasses} (n : Network) (e : NetEvent) :
    Decidable ((network acc classes).allowed n e) :=
  inferInstanceAs (Decidable (n.admits e = true))

/-! ## A network in which nothing has happened -/

/-- A blueprint with a chat box, and a timer widget with its text block. -/
def plainClasses : WidgetClasses where
  chatInputWidgetClass := true
  timerTextWidgetClass := some (some [])

/-- `BeginPlay` has run on the server, and nobody has joined. -/
def emptyNetwork : Network := ⟨emptyServer, true, []⟩

theorem emptyNetwork_reachable {acc : DeadAccess} {classes : WidgetClasses} :
    (network acc classes).Reachable emptyNetwork := by
  have hboot : (network acc classes).Reachable (Network.boot fun _ => 0) := .init ⟨_, rfl⟩
  have hbegins : (network acc classes).allowed (Network.boot fun _ => 0) .beginPlay := rfl
  exact hboot.step hbegins rfl

end NumberBaseball
