import NumberBaseball.Game.Mode

/-!
# `Game.Events` — the server as an event machine

The engine drives the game mode by four kinds of events: a login, a disconnect (which destroys the
controller but leaves its entry in `AllPlayerControllers`), a chat line from a player, and the timer.
Players can arrive before `BeginPlay`; everything else starts with it. `game acc kinds` is the machine
in which exactly the events of `kinds` occur.

The second half names what an event *is* in the state it arrives in: whether it charges the player at
the turn, whether it wins, whether it exhausts the round. These are tests on the state before the
event, in the code's own predicates; nothing in them runs a handler.
-/

namespace NumberBaseball

/-- What reaches the server. A login says whether the engine gave the controller a player state. -/
inductive Event where
  | login (hasPlayerState : Bool)
  | logout (pc : Nat)
  | chat (pc : Nat) (inChatMessageString : FString)
  | tick
deriving DecidableEq, Repr

/-- The controller the engine spawns for a login. -/
def spawnController (hasPlayerState : Bool) : HwPlayerController where
  isValid          := true
  notificationText := []
  playerState      := if hasPlayerState then some .new else none

/-- The engine destroys a controller and with it its player state. -/
def HwPlayerController.destroyed (c : HwPlayerController) : HwPlayerController :=
  { c with isValid := false, playerState := none }

/-- The handler of each event. -/
def handle (acc : DeadAccess) (s : World) : Event → Except Fault World
  | .login hasPlayerState => onPostLogin acc (some (spawnController hasPlayerState)) s
  | .logout pc            => .ok (s.modify pc HwPlayerController.destroyed)
  | .chat pc msg          => printChatMessageString acc pc msg s
  | .tick                 => updateGameTimer acc s

/-- `pc` points to a connected controller. -/
def World.isConnected (s : World) (pc : Nat) : Bool :=
  match s.allPlayerControllers[pc]? with
  | some c => c.isValid
  | none   => false

/-- Only a connected player sends a chat line or disconnects. -/
def World.admits (s : World) : Event → Bool
  | .login _   => true
  | .logout pc => s.isConnected pc
  | .chat pc _ => s.isConnected pc
  | .tick      => true

/-- Players come and go before the game begins. -/
def Event.isArrival : Event → Bool
  | .login _  => true
  | .logout _ => true
  | _         => false

def Event.isLogout : Event → Bool
  | .logout _ => true
  | _         => false

def Event.isLogin : Event → Bool
  | .login _ => true
  | _        => false

/-- Every kind of event. -/
def everyEvent : Event → Prop := fun _ => True

/-- Logins, chat lines and ticks: nobody disconnects. -/
def noLogout (e : Event) : Prop := e.isLogout = false

instance : DecidablePred noLogout := fun e => inferInstanceAs (Decidable (e.isLogout = false))

/-- The server before `BeginPlay`, with any random stream. -/
def lobby (acc : DeadAccess) (kinds : Event → Prop) : Machine World Event Fault where
  init s      := ∃ random, s = World.boot random
  allowed s e := kinds e ∧ s.admits e = true ∧ e.isArrival = true
  step        := handle acc

/-- The server from `BeginPlay` on. -/
def game (acc : DeadAccess) (kinds : Event → Prop) : Machine World Event Fault where
  init s      := ∃ s₀, (lobby acc kinds).Reachable s₀ ∧ beginPlay s₀ = .ok s
  allowed s e := kinds e ∧ s.admits e = true
  step        := handle acc

instance : DecidablePred everyEvent := fun _ => inferInstanceAs (Decidable True)

instance {acc : DeadAccess} {kinds : Event → Prop} [DecidablePred kinds] (s : World) (e : Event) :
    Decidable ((game acc kinds).allowed s e) :=
  inferInstanceAs (Decidable (kinds e ∧ s.admits e = true))

/-! ## A server on which nothing has happened -/

variable {acc : DeadAccess} {kinds : Event → Prop} {s : World}

/-- A state whose lobby was empty of events: `BeginPlay` straight after the start. -/
theorem game_init_boot (random : RandomStream) (h : beginPlay (World.boot random) = .ok s) :
    (game acc kinds).init s := ⟨_, .init ⟨random, rfl⟩, h⟩

/-- The server right after `BeginPlay`, with nobody there and a generator that always draws the first
    digit of its pool. Every secret is then `123`. -/
def emptyServer : World where
  secretNumberString     := text "123"
  allPlayerControllers   := []
  currentTurnIndex       := 0
  bHasActedInCurrentTurn := false
  remainingTime          := 15
  random                 := fun _ => 0
  secretsGenerated       := 1
  sent                   := []

theorem emptyServer_init : (game acc kinds).init emptyServer :=
  game_init_boot (fun _ => 0) rfl

/-! ## What an event is in the state it arrives in -/

/-- The part of a chat line the server looks at: its last three characters. -/
def lastThree (inChatMessageString : FString) : FString :=
  rightChop inChatMessageString ((inChatMessageString.length : Int) - 3)

/-- The pointer `AllPlayerControllers[CurrentTurnIndex]`, when the index is valid. -/
def World.turnHolder (s : World) : Option Nat :=
  if isValidIndex s.allPlayerControllers s.currentTurnIndex then some s.currentTurnIndex.toNat
  else none

/-- An accepted guess from the player at the turn. -/
def World.inTurnGuess (s : World) (pc : Nat) (msg : FString) : Bool :=
  s.turnHolder == some pc && isGuessNumberString (lastThree msg)

/-- A tick would find the turn expired and its holder connected. -/
def World.timesOut (s : World) : Bool :=
  decide (s.remainingTime ≤ 0) && !s.bHasActedInCurrentTurn && s.turnHolder.any s.isConnected

/-- The event is a charged turn: an in-turn guess or a timeout. -/
def World.charges (s : World) : Event → Bool
  | .chat pc msg => s.inTurnGuess pc msg
  | .tick        => s.timesOut
  | _            => false

/-- The event is an in-turn guess of the secret. -/
def World.wins (s : World) : Event → Bool
  | .chat pc msg => s.inTurnGuess pc msg && equals (lastThree msg) s.secretNumberString
  | _            => false

@[simp] theorem charges_chat {pc : Nat} {msg : FString} :
    s.charges (.chat pc msg) = s.inTurnGuess pc msg := rfl

@[simp] theorem charges_tick : s.charges .tick = s.timesOut := rfl

/-- What `GetPlayerState` yields: the player state of a connected controller, if it has one. -/
def HwPlayerController.state? (c : HwPlayerController) : Option HwPlayerState :=
  if c.isValid then c.playerState else none

/-- Rewrite the player state of a connected controller, if it has one. -/
def HwPlayerController.mapState (f : HwPlayerState → HwPlayerState) (c : HwPlayerController) :
    HwPlayerController :=
  if c.isValid then { c with playerState := c.playerState.map f } else c

/-- One more attempt used. -/
def HwPlayerState.charged (ps : HwPlayerState) : HwPlayerState :=
  { ps with currentGuessCount := ps.currentGuessCount + 1 }

/-- No attempt used. -/
def HwPlayerState.cleared (ps : HwPlayerState) : HwPlayerState :=
  { ps with currentGuessCount := 0 }

/-- Charge the player `pc`. -/
def World.charge (s : World) (pc : Nat) : World :=
  s.modify pc (HwPlayerController.mapState HwPlayerState.charged)

/-- The player has an attempt left. -/
def HwPlayerController.hasAttempt (c : HwPlayerController) : Bool :=
  c.state?.any fun ps => decide (ps.currentGuessCount < ps.maxGuessCount)

/-- No connected player has an attempt left. -/
def World.exhausted (s : World) : Bool := s.allPlayerControllers.all fun c => !c.hasAttempt

/-- The event is a charged turn that does not win and leaves nobody with an attempt. -/
def World.draws (s : World) (e : Event) : Bool :=
  s.charges e && !s.wins e && s.turnHolder.any fun pc => (s.charge pc).exhausted

end NumberBaseball
