import NumberBaseball.Correctness.Network

/-!
# `Correctness.Delivery` — what reaches a screen, and what reaches the server

Downwards: a client is sent every call the server makes to its player since the player joined, once and in
order, and the login message of every later player; its screen is a merge of the two, as far as they have
arrived, but for the login messages that came before the controller (`client_is_told`).

Upwards: each time a player presses Enter one line goes to the server, or none, because the chat box never
has its handler bound twice; and the lines the game mode handles are the lines entered, in order, as far as
they have arrived (`lines_arrive_in_order`).
-/

namespace NumberBaseball

open World Machine

variable {acc : DeadAccess} {classes : WidgetClasses} {n n' : Network} {pc : Nat}

/-! ## What one machine does -/

/-- `LinkStep classes l e l'`: what the admitted event `e` does to the connection `l`. -/
inductive LinkStep (classes : WidgetClasses) (l : Link) : LinkEvent → Link → Prop
  | beginPlay (hv : l.client.controller.isValid = true) (hb : l.client.begunPlay = false) :
      LinkStep classes l .beginPlay { l with client := l.client.beginPlay classes }
  | edit {inText : FString} :
      LinkStep classes l (.edit inText) (l.modifyChatInput fun w => { w with editableTextBox := inText })
  | commit {commitMethod : ETextCommit} : LinkStep classes l (.commit commitMethod) (l.commit commitMethod)
  | nativeConstruct :
      LinkStep classes l .nativeConstruct (l.modifyChatInput HwChatInput.nativeConstruct)
  | nativeDestruct : LinkStep classes l .nativeDestruct (l.modifyChatInput HwChatInput.nativeDestruct)
  | controllerCall {call : Rpc} {ch : Channel Rpc} {c : Client}
      (hv : l.client.controller.isValid = true) (hr : l.fromController.receive = some (call, ch))
      (hc : l.client.execute call = .ok c) :
      LinkStep classes l .controllerCall { l with client := c, fromController := ch }
  | gameStateCall {call : Rpc} {ch : Channel Rpc} {c : Client}
      (hr : l.fromGameState.receive = some (call, ch)) (hc : l.client.execute call = .ok c) :
      LinkStep classes l .gameStateCall { l with client := c, fromGameState := ch }
  | update {u : Update} {us : List Update} (hu : l.updates = u :: us) :
      LinkStep classes l .update { l with client := l.client.receiveUpdate u, updates := us }
  | lostUpdate : LinkStep classes l .lostUpdate { l with updates := l.updates.tail }

/-- **The inversion lemma.** -/
theorem LinkStep.of_step {l l' : Link} {e : LinkEvent} (ha : l.admits e = true)
    (hs : l.step classes e = .ok l') : LinkStep classes l e l' := by
  cases e with
  | beginPlay =>
      obtain rfl := Except.ok.inj hs
      simp only [Link.admits, Bool.and_eq_true, Bool.not_eq_true'] at ha
      exact .beginPlay ha.1 ha.2
  | edit _ =>
      obtain rfl := Except.ok.inj hs
      exact .edit
  | commit _ =>
      obtain rfl := Except.ok.inj hs
      exact .commit
  | nativeConstruct =>
      obtain rfl := Except.ok.inj hs
      exact .nativeConstruct
  | nativeDestruct =>
      obtain rfl := Except.ok.inj hs
      exact .nativeDestruct
  | controllerCall =>
      simp only [Link.admits, Bool.and_eq_true, Bool.not_eq_true'] at ha
      obtain ⟨hv, hfly⟩ := ha
      simp only [Link.step] at hs
      cases hr : l.fromController.receive with
      | none =>
          rw [Channel.receive_eq_none.mp hr] at hfly
          cases hfly
      | some p =>
          rw [hr] at hs
          obtain ⟨c, hc, hs⟩ := Except.bind_eq_ok.mp hs
          obtain rfl := Except.ok.inj hs
          exact .controllerCall hv hr hc
  | gameStateCall =>
      simp only [Link.admits, Bool.and_eq_true, Bool.not_eq_true'] at ha
      simp only [Link.step] at hs
      cases hr : l.fromGameState.receive with
      | none =>
          rw [Channel.receive_eq_none.mp hr] at ha
          cases ha.2
      | some p =>
          rw [hr] at hs
          obtain ⟨c, hc, hs⟩ := Except.bind_eq_ok.mp hs
          obtain rfl := Except.ok.inj hs
          exact .gameStateCall hr hc
  | update =>
      simp only [Link.step] at hs
      cases hu : l.updates with
      | nil =>
          rw [Link.admits, hu] at ha
          cases ha
      | cons u us =>
          rw [hu] at hs
          obtain rfl := Except.ok.inj hs
          exact .update hu
  | lostUpdate =>
      obtain rfl := Except.ok.inj hs
      exact .lostUpdate

/-- What happens at a client takes nothing out of the histories of the channels to it. -/
theorem LinkStep.history {l l' : Link} {e : LinkEvent} (h : LinkStep classes l e l') :
    l'.fromController.history = l.fromController.history ∧
      l'.fromGameState.history = l.fromGameState.history := by
  cases h with
  | controllerCall _ hr => exact ⟨Channel.history_receive hr, rfl⟩
  | gameStateCall hr => exact ⟨rfl, Channel.history_receive hr⟩
  | _ => exact ⟨rfl, rfl⟩

/-! ## What is sent to a client -/

/-- What has been sent over the connection of `pc`: the server's calls to that player, and the login messages
    of the players from the next one on, or from `pc` itself. -/
structure Link.Wired (s : World) (pc : Nat) (l : Link) : Prop where
  controller : l.fromController.history = s.sent.filter (·.owner == some pc)
  gameState  : ∃ k, pc ≤ k ∧ k ≤ pc + 1 ∧ l.fromGameState.history = (loginCalls s.sent).drop k

theorem Link.Wired.call {s s' : World} {l : Link} {calls : List Rpc} (h : l.Wired s pc)
    (htold : s.Told) (hpc : s.isConnected pc = true) (hsent : s'.sent = s.sent ++ calls) :
    (l.call pc calls).Wired s' pc where
  controller := by
    rw [hsent, List.filter_append, ← h.controller]
    exact Channel.history_send
  gameState := by
    obtain ⟨k, hlo, hhi, hk⟩ := h.gameState
    refine ⟨k, hlo, hhi, ?_⟩
    -- the messages that are dropped have all been sent before
    have hlt := isConnected_lt hpc
    have hlen : k ≤ (loginCalls s.sent).length := by
      rw [htold.logins, List.length_map, List.length_range]
      omega
    rw [hsent, loginCalls_append, List.drop_append_of_le_length hlen, ← hk]
    exact Channel.history_send

/-- The newcomer's own login message may be under way. -/
theorem newcomer_eq {s : World} (hlen : n.links.length = n.server.allPlayerControllers.length)
    (hm : Move n.server (.login true) s) (b : Bool) :
    s.sent = n.server.sent ++ [loginCall n.server.allPlayerControllers.length] ∧
    n.newcomer s b = if b then Link.new.call n.server.allPlayerControllers.length
      [loginCall n.server.allPlayerControllers.length] else Link.new := by
  cases hm with
  | login =>
      have hsent : n.server.joined.sent
          = n.server.sent ++ [loginCall n.server.allPlayerControllers.length] := rfl
      refine ⟨hsent, ?_⟩
      unfold Network.newcomer
      rw [hsent, List.drop_left, hlen]

/-- The server has never called a newcomer, and what login message may be under way is the last one. -/
theorem Link.Wired.newcomer {s : World} (htold : n.server.Told) {b : Bool}
    (hlen : n.links.length = n.server.allPlayerControllers.length)
    (hm : Move n.server (.login true) s) :
    (n.newcomer s b).Wired s n.server.allPlayerControllers.length := by
  obtain ⟨hsent, hnew⟩ := newcomer_eq hlen hm b
  have hbefore : n.server.sent.filter (·.owner == some n.server.allPlayerControllers.length) = [] := by
    apply List.filter_eq_nil_iff.mpr
    intro call hcall howner
    exact Nat.lt_irrefl _ (htold.joined call hcall _ (by simpa using howner))
  have hlogins : (loginCalls n.server.sent).length = n.server.allPlayerControllers.length := by
    rw [htold.logins, List.length_map, List.length_range]
  rw [hnew]
  refine ⟨?_, ?_⟩
  · rw [hsent, List.filter_append, hbefore]
    cases b <;> rfl
  · rw [hsent, loginCalls_append]
    cases b with
    | false =>
        refine ⟨n.server.allPlayerControllers.length + 1, Nat.le_succ _, Nat.le_refl _, ?_⟩
        rw [List.drop_of_length_le (by rw [List.length_append, hlogins]; rfl)]
        rfl
    | true =>
        refine ⟨n.server.allPlayerControllers.length, Nat.le_refl _, Nat.le_succ _, ?_⟩
        rw [List.drop_append_of_le_length hlogins.ge, List.drop_of_length_le hlogins.le]
        rfl

theorem Link.Wired.move {s s' : World} {l l' : Link} (h : l.Wired s pc) (htold : s.Told)
    (hpc : s.isConnected pc = true) {o : Option LinkEvent} (hm : LinkMove classes s s' pc o l l') :
    l'.Wired s' pc := by
  cases hm with
  | idle hsent =>
      refine ⟨?_, ?_⟩
      · rw [hsent]
        exact h.controller
      · rw [hsent]
        exact h.gameState
  | called hsent => exact h.call htold hpc hsent
  | @handled _ line ch calls hr hsent =>
      have hreceived : Link.Wired s pc { l with toServer := ch } := ⟨h.controller, h.gameState⟩
      exact hreceived.call htold hpc hsent
  | replicated actor hs =>
      rw [hs]
      exact ⟨h.controller, h.gameState⟩
  | own e hs ha he =>
      obtain ⟨hc, hg⟩ := (LinkStep.of_step ha he).history
      refine ⟨?_, ?_⟩
      · rw [hs, hc]
        exact h.controller
      · rw [hs, hg]
        exact h.gameState

/-- What comes through the controller was said to its player. -/
theorem Link.Wired.owner_controller {s : World} {l : Link} (h : l.Wired s pc) {call : Rpc}
    {ch : Channel Rpc} (hr : l.fromController.receive = some (call, ch)) : call.owner = some pc := by
  have hmem : call ∈ l.fromController.history := by
    rw [Channel.history, (Channel.receive_eq_some.mp hr).1]
    exact List.mem_append_right _ List.mem_cons_self
  rw [h.controller] at hmem
  simpa using (List.mem_filter.mp hmem).2

/-- What comes through the game state is a login message. -/
theorem Link.Wired.owner_gameState {s : World} {l : Link} (h : l.Wired s pc) {call : Rpc}
    {ch : Channel Rpc} (hr : l.fromGameState.receive = some (call, ch)) : call.owner = none := by
  have hmem : call ∈ l.fromGameState.history := by
    rw [Channel.history, (Channel.receive_eq_some.mp hr).1]
    exact List.mem_append_right _ List.mem_cons_self
  obtain ⟨k, -, -, hk⟩ := h.gameState
  rw [hk] at hmem
  simpa using (List.mem_filter.mp (List.mem_of_mem_drop hmem)).2

/-! ## What is shown -/

/-- What a client prints of login messages. -/
def loginTexts (calls : List Rpc) : List FString :=
  calls.filterMap fun
    | .multicastRPCBroadcastLoginMessage name => some (name ++ text " has joined the game.")
    | _ => none

theorem loginTexts_append (calls calls' : List Rpc) :
    loginTexts (calls ++ calls') = loginTexts calls ++ loginTexts calls' := List.filterMap_append

/-- Between `c` and `c'` the client has printed `lines`, and has otherwise remained what it was. -/
structure Client.Printed (c c' : Client) (lines : List FString) : Prop where
  netMode    : c'.netMode = c.netMode
  isLocal    : c'.isLocalController = c.isLocalController
  controller : c'.controller = c.controller
  screen     : c'.screen = c.screen ++ lines

/-- The machine is a client's, with a controller of its own. -/
structure Client.Remote (c : Client) : Prop where
  netMode : c.netMode = .client
  isLocal : c.isLocalController = true

theorem Client.printed_nil {c c' : Client} (hn : c'.netMode = c.netMode)
    (hl : c'.isLocalController = c.isLocalController) (hc : c'.controller = c.controller)
    (hs : c'.screen = c.screen) : c.Printed c' [] := ⟨hn, hl, hc, by rw [hs, List.append_nil]⟩

theorem Client.Remote.print {c : Client} (h : c.Remote) (msg : FString) :
    c.Printed (c.printChatMessageString msg) [msg] := by
  unfold Client.printChatMessageString Client.myPrintString
  rw [if_neg (by rw [h.isLocal]; exact Bool.true_eq_false.mp), if_pos (Or.inl h.netMode)]
  exact ⟨rfl, rfl, rfl, rfl⟩

/-- A timer call that succeeds writes into the log at most, or puts the time into the timer widget. -/
theorem Client.timer_cases {c c' : Client} (h : c.clientRPCTimerUiUpdate = .ok c') :
    (∃ log, c' = { c with log := log }) ∨
    ∃ old v, c.timerTextWidgetInstance = some (some old) ∧ c.remainingTime = some v ∧
      c' = { c with timerTextWidgetInstance := some (some (text "Time : " ++ fromInt v)) } := by
  unfold Client.clientRPCTimerUiUpdate at h
  split at h
  · exact Or.inl ⟨c.log, (Except.ok.inj h).symm⟩
  · split at h
    · exact Or.inl ⟨c.log, (Except.ok.inj h).symm⟩
    · next v hv =>
        split at h
        · cases h
        · exact Or.inl ⟨_, (Except.ok.inj h).symm⟩
        · next old hold => exact Or.inr ⟨old, v, hold, hv, (Except.ok.inj h).symm⟩

/-- It prints nothing on the screen. -/
theorem Client.printed_timer {c c' : Client} (h : c.clientRPCTimerUiUpdate = .ok c') :
    c.Printed c' [] := by
  rcases Client.timer_cases h with ⟨log, rfl⟩ | ⟨old, v, -, -, rfl⟩
  · exact Client.printed_nil rfl rfl rfl rfl
  · exact Client.printed_nil rfl rfl rfl rfl

/-- Printing only writes on the screen or into the log. -/
theorem Client.printChatMessageString_eq (msg : FString) (c : Client) :
    ∃ screen log, c.printChatMessageString msg = { c with screen := screen, log := log } := by
  unfold Client.printChatMessageString Client.myPrintString
  split
  · exact ⟨c.screen, c.log, rfl⟩
  · split
    · exact ⟨_, c.log, rfl⟩
    · exact ⟨c.screen, _, rfl⟩

/-- A call that comes to a client leaves its replicas and its chat box alone. -/
theorem Client.execute_eq {c c' : Client} {call : Rpc} (h : c.execute call = .ok c') :
    ∃ screen log timer,
      c' = { c with screen := screen, log := log, timerTextWidgetInstance := timer } := by
  have hprint : ∀ msg, ∃ screen log timer, c.printChatMessageString msg
      = { c with screen := screen, log := log, timerTextWidgetInstance := timer } := by
    intro msg
    obtain ⟨screen, log, heq⟩ := c.printChatMessageString_eq msg
    exact ⟨screen, log, c.timerTextWidgetInstance, heq⟩
  cases call with
  | clientRPCPrintChatMessageString t msg =>
      obtain rfl := Except.ok.inj h
      exact hprint msg
  | clientRPCTimerUiUpdate t =>
      rcases Client.timer_cases h with ⟨log, rfl⟩ | ⟨old, v, -, -, rfl⟩
      · exact ⟨c.screen, log, c.timerTextWidgetInstance, rfl⟩
      · exact ⟨c.screen, c.log, _, rfl⟩
  | multicastRPCBroadcastLoginMessage name =>
      obtain rfl := Except.ok.inj h
      unfold Client.multicastRPCBroadcastLoginMessage
      rw [if_pos rfl]
      split
      · exact hprint _
      · exact ⟨c.screen, c.log, c.timerTextWidgetInstance, rfl⟩

/-- A call through the client's controller prints what the player is to hear of it. -/
theorem Client.Remote.execute_controller {c c' : Client} (h : c.Remote) {call : Rpc}
    (howner : call.owner = some pc) (hc : c.execute call = .ok c') : c.Printed c' (heard pc [call]) := by
  cases call with
  | clientRPCPrintChatMessageString t msg =>
      obtain rfl := Option.some.inj howner
      obtain rfl := Except.ok.inj hc
      have hheard : heard t [.clientRPCPrintChatMessageString t msg] = [msg] := by simp [heard]
      rw [hheard]
      exact h.print msg
  | clientRPCTimerUiUpdate => exact Client.printed_timer hc
  | multicastRPCBroadcastLoginMessage => cases howner

/-- A login message is printed as soon as the controller is there. -/
theorem Client.Remote.execute_gameState {c c' : Client} (h : c.Remote) {call : Rpc}
    (howner : call.owner = none) (hc : c.execute call = .ok c') :
    c.Printed c' (if c.controller.isValid then loginTexts [call] else []) := by
  cases call with
  | multicastRPCBroadcastLoginMessage name =>
      obtain rfl := Except.ok.inj hc
      unfold Client.multicastRPCBroadcastLoginMessage
      rw [if_pos rfl]
      cases c.controller.isValid with
      | true => exact h.print _
      | false => exact Client.printed_nil rfl rfl rfl rfl
  | _ => cases howner

/-- The login message that reaches a machine before its controller has. -/
def Link.lostLogin (l : Link) : LinkEvent → Option Rpc
  | .gameStateCall => if l.client.controller.isValid then none else l.fromGameState.inFlight.head?
  | _              => none

/-- What is on the screen: the messages that have come through the controller and the login messages, but for
    those in `lost`, each in order. -/
structure Link.Shows (pc : Nat) (lost : List Rpc) (l : Link) : Prop where
  remote : l.client.Remote
  early  : l.client.controller.isValid = false →
    l.fromController.delivered = [] ∧ l.fromGameState.delivered = lost ∧ l.client.screen = []
  screen : ∃ shown, l.fromGameState.delivered = lost ++ shown ∧
    Merges (heard pc l.fromController.delivered) (loginTexts shown) l.client.screen

namespace Link.Shows
variable {l l' : Link} {lost : List Rpc}

theorem new : Link.new.Shows pc [] where
  remote := ⟨rfl, rfl⟩
  early _ := ⟨rfl, rfl, rfl⟩
  screen := ⟨[], rfl, .nil⟩

/-- What neither delivers nor prints keeps it. -/
theorem quiet (h : l.Shows pc lost) (hremote : l'.client.Remote)
    (hv : l'.client.controller.isValid = false → l.client.controller.isValid = false)
    (hs : l'.client.screen = l.client.screen)
    (hc : l'.fromController.delivered = l.fromController.delivered)
    (hg : l'.fromGameState.delivered = l.fromGameState.delivered) : l'.Shows pc lost where
  remote := hremote
  early hno := by
    rw [hc, hg, hs]
    exact h.early (hv hno)
  screen := by
    rw [hc, hg, hs]
    exact h.screen

/-- What happens to the chat box alone keeps it. -/
theorem chatInput (h : l.Shows pc lost) {w : Option HwChatInput} {ch : Channel FString} :
    Link.Shows pc lost { l with
      client := { l.client with chatInputWidgetInstance := w }, toServer := ch } :=
  h.quiet ⟨h.remote.netMode, h.remote.isLocal⟩ id rfl rfl rfl

theorem controllerCall (h : l.Shows pc lost) {call : Rpc} {ch : Channel Rpc} {c : Client}
    (hv : l.client.controller.isValid = true) (hr : l.fromController.receive = some (call, ch))
    (howner : call.owner = some pc) (hc : l.client.execute call = .ok c) :
    Link.Shows pc lost { l with client := c, fromController := ch } := by
  have hprinted := h.remote.execute_controller howner hc
  obtain ⟨shown, hshown, hmerges⟩ := h.screen
  refine ⟨⟨hprinted.netMode.trans h.remote.netMode, hprinted.isLocal.trans h.remote.isLocal⟩, ?_,
    shown, hshown, ?_⟩
  · intro hno
    rw [show c.controller.isValid = true by rw [hprinted.controller, hv]] at hno
    cases hno
  · show Merges (heard pc ch.delivered) _ c.screen
    rw [(Channel.receive_eq_some.mp hr).2, heard_append, hprinted.screen]
    exact hmerges.appendLeft _

theorem gameStateCall (h : l.Shows pc lost) {call : Rpc} {ch : Channel Rpc} {c : Client}
    (hr : l.fromGameState.receive = some (call, ch)) (howner : call.owner = none)
    (hc : l.client.execute call = .ok c) :
    Link.Shows pc (lost ++ (l.lostLogin .gameStateCall).toList)
      { l with client := c, fromGameState := ch } := by
  have hprinted := h.remote.execute_gameState howner hc
  obtain ⟨hfly, hdelivered⟩ := Channel.receive_eq_some.mp hr
  have hremote : c.Remote :=
    ⟨hprinted.netMode.trans h.remote.netMode, hprinted.isLocal.trans h.remote.isLocal⟩
  unfold Link.lostLogin
  cases hv : l.client.controller.isValid with
  | true =>
      rw [hv, if_pos rfl] at hprinted
      obtain ⟨shown, hshown, hmerges⟩ := h.screen
      rw [if_pos rfl, Option.toList_none, List.append_nil]
      refine ⟨hremote, ?_, shown ++ [call], ?_, ?_⟩
      · intro hno
        rw [show c.controller.isValid = true by rw [hprinted.controller, hv]] at hno
        cases hno
      · show ch.delivered = _
        rw [hdelivered, hshown, List.append_assoc]
      · show Merges _ _ c.screen
        rw [loginTexts_append, hprinted.screen]
        exact hmerges.appendRight _
  | false =>
      -- too early: the message is lost, as those before it
      rw [hv, if_neg Bool.false_ne_true] at hprinted
      obtain ⟨hnone, hlost, hblank⟩ := h.early hv
      have hscreen : c.screen = [] := by rw [hprinted.screen, hblank]; rfl
      have hdelivered : ch.delivered = lost ++ [call] := by rw [hdelivered, hlost]
      rw [if_neg Bool.false_ne_true, hfly, List.head?_cons, Option.toList_some]
      refine ⟨hremote, fun _ => ⟨hnone, hdelivered, hscreen⟩, [], ?_, ?_⟩
      · show ch.delivered = _
        rw [hdelivered, List.append_nil]
      · show Merges (heard pc l.fromController.delivered) _ c.screen
        rw [hnone, hscreen]
        exact .nil

end Link.Shows

/-- Only the chat box has changed, and in it only the text. -/
structure Client.Wrote (c c' : Client) : Prop where
  rest     : ∃ w, c' = { c with chatInputWidgetInstance := w }
  bindings : c'.chatInputWidgetInstance.map (·.bindings) = c.chatInputWidgetInstance.map (·.bindings)

theorem Client.Wrote.trans {c c' c'' : Client} (h : c.Wrote c') (h' : c'.Wrote c'') : c.Wrote c'' := by
  obtain ⟨⟨w, rfl⟩, hb⟩ := h
  obtain ⟨⟨w', rfl⟩, hb'⟩ := h'
  exact ⟨⟨w', rfl⟩, hb'.trans hb⟩

theorem Client.Wrote.refl (c : Client) : c.Wrote c := ⟨⟨c.chatInputWidgetInstance, rfl⟩, rfl⟩

theorem onChatInputTextCommitted_wrote (inText : FString) (commitMethod : ETextCommit) (c : Client) :
    c.Wrote (c.onChatInputTextCommitted inText commitMethod).1 := by
  unfold Client.onChatInputTextCommitted
  split
  · split
    · exact ⟨⟨_, rfl⟩, by rw [Option.map_map]; rfl⟩
    · exact .refl c
  · exact .refl c

theorem commitLoop_wrote {inText : FString} {commitMethod : ETextCommit} :
    ∀ (left : Nat) (c : Client), c.Wrote (commitLoop inText commitMethod left c).1 := by
  intro left
  induction left with
  | zero => exact fun c => .refl c
  | succ left ih =>
      intro c
      exact (onChatInputTextCommitted_wrote inText commitMethod c).trans (ih _)

theorem Client.textCommitted_wrote (commitMethod : ETextCommit) (c : Client) :
    c.Wrote (c.textCommitted commitMethod).1 := by
  unfold Client.textCommitted
  split
  · exact .refl c
  · exact commitLoop_wrote _ c

theorem Client.Remote.beginPlay_eq {c : Client} (h : c.Remote) (classes : WidgetClasses) :
    ∃ w, c.beginPlay classes = { c with
      begunPlay := true
      chatInputWidgetInstance := w
      timerTextWidgetInstance := classes.timerTextWidgetClass.or c.timerTextWidgetInstance } := by
  cases hclass : classes.timerTextWidgetClass <;> simp [Client.beginPlay, h.isLocal, hclass]

namespace Link.Shows
variable {l l' : Link} {lost : List Rpc} {s : World} {e : LinkEvent}

theorem own (h : l.Shows pc lost) (hw : l.Wired s pc) (hstep : LinkStep classes l e l') :
    l'.Shows pc (lost ++ (l.lostLogin e).toList) := by
  have hnone : l.lostLogin e = none → l'.Shows pc lost → l'.Shows pc (lost ++ (l.lostLogin e).toList) := by
    intro hnone h
    rwa [hnone, Option.toList_none, List.append_nil]
  cases hstep with
  | beginPlay =>
      obtain ⟨w, heq⟩ := h.remote.beginPlay_eq classes
      rw [heq] at hnone ⊢
      exact hnone rfl (h.quiet ⟨h.remote.netMode, h.remote.isLocal⟩ id rfl rfl rfl)
  | edit => exact hnone rfl h.chatInput
  | @commit commitMethod =>
      obtain ⟨w, heq⟩ := (l.client.textCommitted_wrote commitMethod).rest
      unfold Link.commit at hnone ⊢
      rw [heq] at hnone ⊢
      exact hnone rfl h.chatInput
  | nativeConstruct => exact hnone rfl h.chatInput
  | nativeDestruct => exact hnone rfl h.chatInput
  | controllerCall hv hr hc => exact hnone rfl (h.controllerCall hv hr (hw.owner_controller hr) hc)
  | gameStateCall hr hc => exact h.gameStateCall hr (hw.owner_gameState hr) hc
  | @update u us hu =>
      have hremote := h.remote
      cases u with
      | controller =>
          exact hnone rfl (h.quiet ⟨hremote.netMode, hremote.isLocal⟩ (fun hv => by cases hv) rfl rfl rfl)
      | playerState => exact hnone rfl (h.quiet ⟨hremote.netMode, hremote.isLocal⟩ id rfl rfl rfl)
      | gameState => exact hnone rfl (h.quiet ⟨hremote.netMode, hremote.isLocal⟩ id rfl rfl rfl)
  | lostUpdate => exact hnone rfl (h.quiet h.remote id rfl rfl rfl)

/-- **The step lemma.** Whatever the server does shows only when it has arrived. -/
theorem move {s' : World} {o : Option LinkEvent} (h : l.Shows pc lost) (hw : l.Wired s pc)
    (hm : LinkMove classes s s' pc o l l') : l'.Shows pc (lost ++ (o.bind l.lostLogin).toList) := by
  have hnone : ∀ {m : Link}, m.Shows pc lost →
      m.Shows pc (lost ++ ((none : Option LinkEvent).bind l.lostLogin).toList) := by
    intro m hm
    rwa [Option.bind_none, Option.toList_none, List.append_nil]
  cases hm with
  | idle => exact hnone h
  | called => exact hnone (h.quiet h.remote id rfl rfl rfl)
  | handled => exact hnone (h.quiet h.remote id rfl rfl rfl)
  | replicated => exact hnone (h.quiet h.remote id rfl rfl rfl)
  | own e hs ha he => exact h.own hw (.of_step ha he)

end Link.Shows

/-- **The run lemma.** -/
theorem shows_of_run {n₀ : Network} (h : (network acc classes).Reachable n₀) (hjoins : n₀.links.length ≤ pc)
    {es : List NetEvent} (hrun : (network acc classes).Run n₀ es n) {l : Link}
    (hl : n.links[pc]? = some l) (hpc : n.server.isConnected pc = true) :
    l.Wired n.server pc ∧ l.Shows pc ((network acc classes).trace (linkSeen pc Link.lostLogin) n₀ es) := by
  refine link_trace_invariant (P := fun s l lost => l.Wired s pc ∧ l.Shows pc lost) ?_ ?_
    h hjoins hrun hl hpc
  · rintro n s b hr hm rfl
    have hlen := links_length hr
    refine ⟨.newcomer (phase_of_reachable hr).told hlen hm, ?_⟩
    rw [(newcomer_eq hlen hm b).2]
    cases b with
    | false => exact .new
    | true => exact Link.Shows.new.quiet ⟨rfl, rfl⟩ id rfl rfl rfl
  · intro n n' o l l' lost hr hl hpc hm ⟨hw, hs⟩
    exact ⟨hw.move (phase_of_reachable hr).told hpc hm, hs.move hw hm⟩

theorem shows_of_reachable (h : (network acc classes).Reachable n) :
    n.EachLink fun pc l => l.Wired n.server pc ∧ ∃ lost, l.Shows pc lost := by
  intro pc l hl hpc
  obtain ⟨n₀, es, ⟨random, rfl⟩, hrun⟩ := h.exists_run
  obtain ⟨hw, hs⟩ := shows_of_run (.init ⟨random, rfl⟩) (Nat.zero_le pc) hrun hl hpc
  exact ⟨hw, _, hs⟩

theorem remote_of_reachable (h : (network acc classes).Reachable n) :
    n.EachLink fun _ l => l.client.Remote := by
  intro pc l hl hpc
  obtain ⟨-, lost, hs⟩ := shows_of_reachable h pc l hl hpc
  exact hs.remote

/-- **What a client is told, and what it shows.** After every run that starts before a player joins, the client
    of that player, while connected, has been sent, or is being sent, exactly the calls the server has made
    to that player, in order, and the login messages of all players from the next one on (or from itself
    on), in order. What is on its screen is a merge of the chat messages that have arrived and the login
    messages that have arrived, each in order, all but the login messages that came in the run before its
    controller did. -/
theorem client_is_told {n₀ : Network} (h : (network acc classes).Reachable n₀)
    (hjoins : n₀.links.length ≤ pc) {es : List NetEvent} (hrun : (network acc classes).Run n₀ es n)
    {l : Link} (hl : n.links[pc]? = some l) (hpc : n.server.isConnected pc = true) :
    l.fromController.history = n.server.sent.filter (·.owner == some pc) ∧
    (∃ k, pc ≤ k ∧ k ≤ pc + 1 ∧ l.fromGameState.history
      = ((List.range n.server.allPlayerControllers.length).drop k).map loginCall) ∧
    ∃ shown, l.fromGameState.delivered
        = (network acc classes).trace (linkSeen pc Link.lostLogin) n₀ es ++ shown ∧
      Merges (heard pc l.fromController.delivered) (loginTexts shown) l.client.screen := by
  obtain ⟨hw, hs⟩ := shows_of_run h hjoins hrun hl hpc
  obtain ⟨k, hlo, hhi, hk⟩ := hw.gameState
  rw [(phase_of_reachable (h.run hrun)).told.logins] at hk
  exact ⟨hw.controller, ⟨k, hlo, hhi, hk.trans List.map_drop.symm⟩, hs.screen⟩

/-- A player joins and is shown everything there is. -/
def arrives (pc : Nat) : List NetEvent :=
  [.login true true, .replicate pc .controller, .link pc .update, .replicate pc .playerState,
    .link pc .update, .link pc .beginPlay]

/-- A player enters a text, and the line arrives. -/
def enters (pc : Nat) (inText : FString) : List NetEvent :=
  [.link pc (.edit inText), .link pc (.commit .onEnter), .chatCall pc]

/-- Two players, the first of whom misses the login message of its own, and reads the chat line of the second
    before it reads that the second has joined. -/
theorem client_is_told_late :
    let es := [.login true true, .replicate 0 .gameState, .link 0 .update, .link 0 .gameStateCall,
      .replicate 0 .controller, .link 0 .update, .link 0 .beginPlay] ++ arrives 1 ++ enters 1 (text "hi") ++
      [.link 0 .controllerCall, .link 0 .gameStateCall]
    ∃ n l, (network .yieldsNull plainClasses).Run emptyNetwork es n ∧ n.links[0]? = some l ∧
      l.client.screen = [text "Player2(0/3): hi", text "Player2 has joined the game."] ∧
      l.fromController.history = n.server.sent.filter (·.owner == some 0) ∧
      ∃ shown, l.fromGameState.delivered = [loginCall 0] ++ shown ∧
        Merges [text "Player2(0/3): hi"] (loginTexts shown) l.client.screen := by
  intro es
  obtain ⟨n, hrun, hview⟩ := Run.exists_view (M := network .yieldsNull plainClasses) (s := emptyNetwork) es
    (fun n => (n.links[0]?.map fun l => (l.client.screen, heard 0 l.fromController.delivered),
      n.server.isConnected 0))
    (b := (some ([text "Player2(0/3): hi", text "Player2 has joined the game."],
      [text "Player2(0/3): hi"]), true)) (by decide +kernel)
  have hlost : (network .yieldsNull plainClasses).trace (linkSeen 0 Link.lostLogin) emptyNetwork es
      = [loginCall 0] := by decide +kernel
  simp only [Prod.mk.injEq, Option.map_eq_some_iff] at hview
  obtain ⟨⟨l, hl, hscreen, hheard⟩, hpc⟩ := hview
  obtain ⟨hcalls, -, hshown⟩ := client_is_told emptyNetwork_reachable (Nat.le_refl 0) hrun hl hpc
  rw [hlost, hheard] at hshown
  exact ⟨n, l, hrun, hl, hscreen, hcalls, hshown⟩

/-! ## From the chat box to the server -/

/-- The line a player's Enter sends, if it sends one. -/
def Client.enterLine (c : Client) : Option FString :=
  match c.chatInputWidgetInstance with
  | none   => none
  | some w =>
      if w.isAlreadyBound && c.controller.isValid then
        c.controller.setChatMessageString c.isLocalController w.editableTextBox
      else none

/-- The line the player `pc` enters in a step. -/
def enteredLine (pc : Nat) (n : Network) : NetEvent → Option FString
  | .link t (.commit .onEnter) => if t = pc then n.links[pc]?.bind (·.client.enterLine) else none
  | _                          => none

/-- The line of the player `pc` that the game mode handles in a step. -/
def handledLine (pc : Nat) (n : Network) (e : NetEvent) : Option FString :=
  match n.serverEvent e with
  | some (.chat t line) => if t = pc then some line else none
  | _                   => none

/-- The channel from the player `pc` to the server. -/
def Network.toServer (n : Network) (pc : Nat) : Channel FString :=
  match n.links[pc]? with
  | some l => l.toServer
  | none   => .empty

/-- The handler is bound to the chat box once at most. -/
def Client.BoundOnce (c : Client) : Prop :=
  ∀ w, c.chatInputWidgetInstance = some w → w.bindings ≤ 1

theorem HwChatInput.bindings_nativeConstruct {w : HwChatInput} (h : w.bindings ≤ 1) :
    w.nativeConstruct.bindings ≤ 1 := by
  unfold HwChatInput.nativeConstruct HwChatInput.isAlreadyBound
  split
  · next h0 =>
      have : w.bindings = 0 := by simpa using h0
      show w.bindings + 1 ≤ 1
      omega
  · exact h

theorem HwChatInput.bindings_nativeDestruct {w : HwChatInput} (h : w.bindings ≤ 1) :
    w.nativeDestruct.bindings ≤ 1 := by
  unfold HwChatInput.nativeDestruct
  split
  · exact (Nat.sub_le _ _).trans h
  · exact h

theorem Client.BoundOnce.map {c : Client} (h : c.BoundOnce) {f : HwChatInput → HwChatInput}
    (hf : ∀ w : HwChatInput, w.bindings ≤ 1 → (f w).bindings ≤ 1) :
    Client.BoundOnce { c with chatInputWidgetInstance := c.chatInputWidgetInstance.map f } := by
  intro w hw
  obtain ⟨v, hv, rfl⟩ := Option.map_eq_some_iff.mp hw
  exact hf v (h v hv)

theorem Client.BoundOnce.wrote {c c' : Client} (h : c.BoundOnce) (hw : c.Wrote c') : c'.BoundOnce := by
  intro w hw'
  have hb := hw.bindings
  rw [hw', Option.map_some] at hb
  obtain ⟨v, hv, hvb⟩ := Option.map_eq_some_iff.mp hb.symm
  rw [← hvb]
  exact h v hv

theorem Client.BoundOnce.beginPlay {c : Client} (h : c.BoundOnce) :
    (c.beginPlay classes).BoundOnce := by
  unfold Client.beginPlay
  split
  · exact h
  · intro w hw
    change (if classes.chatInputWidgetClass then _ else c.chatInputWidgetInstance) = some w at hw
    split at hw
    · obtain rfl := Option.some.inj hw
      exact Nat.le_refl 1
    · exact h w hw

theorem LinkStep.boundOnce {l l' : Link} {e : LinkEvent} (hstep : LinkStep classes l e l')
    (h : l.client.BoundOnce) : l'.client.BoundOnce := by
  cases hstep with
  | beginPlay => exact h.beginPlay
  | edit => exact h.map fun _ hw => hw
  | commit => exact h.wrote (l.client.textCommitted_wrote _)
  | nativeConstruct => exact h.map fun _ => HwChatInput.bindings_nativeConstruct
  | nativeDestruct => exact h.map fun _ => HwChatInput.bindings_nativeDestruct
  | controllerCall _ _ hc =>
      obtain ⟨screen, log, timer, rfl⟩ := Client.execute_eq hc
      exact h
  | gameStateCall _ hc =>
      obtain ⟨screen, log, timer, rfl⟩ := Client.execute_eq hc
      exact h
  | @update u us hu => cases u <;> exact h
  | lostUpdate => exact h

theorem boundOnce_of_reachable (h : (network acc classes).Reachable n) :
    n.EachLink fun _ l => l.client.BoundOnce := by
  refine link_invariant (P := fun _ _ l => l.client.BoundOnce) ?_ ?_ h
  · intro n s b hr hm w hw
    rw [(newcomer_eq (links_length hr) hm b).2] at hw
    cases b <;> cases hw
  · intro n n' pc o l l' hr hl hpc hm hI
    cases hm with
    | own e hs ha he => exact (LinkStep.of_step ha he).boundOnce hI
    | _ => exact hI

/-- Enter sends one line, or none. -/
theorem Client.textCommitted_onEnter {c : Client} (h : c.BoundOnce) :
    (c.textCommitted .onEnter).2 = c.enterLine.toList := by
  unfold Client.textCommitted Client.enterLine
  cases hw : c.chatInputWidgetInstance with
  | none => rfl
  | some w =>
      obtain ⟨inText, bindings⟩ := w
      have hb : bindings ≤ 1 := h _ hw
      match bindings, hb with
      | 0, _ => rfl
      | 1, _ =>
          show (c.onChatInputTextCommitted inText .onEnter).2 ++ [] = _
          rw [List.append_nil]
          unfold Client.onChatInputTextCommitted
          rw [if_pos rfl]
          cases hv : c.controller.isValid <;> simp [HwChatInput.isAlreadyBound]

/-- Leaving the box in another way sends nothing. -/
theorem Client.textCommitted_other {c : Client} {commitMethod : ETextCommit}
    (h : commitMethod ≠ .onEnter) : (c.textCommitted commitMethod).2 = [] := by
  have hone : ∀ inText c, Client.onChatInputTextCommitted inText commitMethod c = (c, []) :=
    fun _ _ => if_neg h
  have hloop : ∀ (inText : FString) left c, (commitLoop inText commitMethod left c).2 = [] := by
    intro inText left
    induction left with
    | zero => exact fun _ => rfl
    | succ left ih =>
        intro c
        show (c.onChatInputTextCommitted inText commitMethod).2 ++
          (commitLoop inText commitMethod left (c.onChatInputTextCommitted inText commitMethod).1).2 = []
        rw [hone, ih]
        rfl
  unfold Client.textCommitted
  split
  · rfl
  · exact hloop _ _ _

/-! ## The channel to the server through a step -/

section ToServer
variable {s : World} {l l' : Link} {e : NetEvent} {t : Nat}

theorem toServer_some (hl : n.links[pc]? = some l) : n.toServer pc = l.toServer := by
  unfold Network.toServer
  rw [hl]

theorem toServer_serve : (n.serve s).toServer pc = n.toServer pc := by
  unfold Network.toServer
  rw [show (n.serve s).links[pc]? = _ from List.getElem?_mapIdx]
  cases n.links[pc]? with
  | none => rfl
  | some l =>
      show Link.toServer (if _ then _ else _) = _
      split <;> rfl

/-- A newcomer has sent nothing. -/
theorem toServer_newcomer (s : World) (reachesNewcomer : Bool) :
    ({ n.serve s with links := (n.serve s).links ++ [n.newcomer s reachesNewcomer] } : Network).toServer pc
      = n.toServer pc := by
  have hserve : (n.serve s).toServer pc = n.toServer pc := toServer_serve
  rw [← hserve]
  unfold Network.toServer
  rcases Nat.lt_trichotomy pc (n.serve s).links.length with hlt | rfl | hgt
  · simp only [List.getElem?_append_left hlt]
  · simp only [List.getElem?_concat_length, List.getElem?_eq_none (Nat.le_refl _)]
    unfold Network.newcomer
    cases reachesNewcomer <;> rfl
  · have hlong : ((n.serve s).links ++ [n.newcomer s reachesNewcomer]).length ≤ pc := by
      rw [List.length_append]
      exact hgt
    simp only [List.getElem?_eq_none hlong, List.getElem?_eq_none (Nat.le_of_lt hgt)]

/-- What is replicated to one player leaves all channels to the server alone. -/
theorem toServer_modify {us : List Update} :
    ({ n with links := n.links.modify t fun l => { l with updates := l.updates ++ us } } : Network).toServer pc
      = n.toServer pc := by
  unfold Network.toServer
  simp only [List.getElem?_modify]
  cases n.links[pc]? with
  | none => rfl
  | some l => by_cases ht : t = pc <;> simp [ht]

theorem toServer_setLink_ne (ht : t ≠ pc) : (n.setLink t l).toServer pc = n.toServer pc := by
  unfold Network.toServer
  rw [getElem?_setLink_ne ht]

theorem handledLine_chatCall {line : FString} {ch : Channel FString} (hl : n.links[t]? = some l)
    (hr : l.toServer.receive = some (line, ch)) :
    handledLine pc n (.chatCall t) = if t = pc then some line else none := by
  unfold handledLine
  rw [serverEvent_chatCall hl hr]

/-- Enter sends the line of `Client.enterLine` to the server. -/
theorem LinkStep.toServer_onEnter (h : LinkStep classes l (.commit .onEnter) l')
    (hb : l.client.BoundOnce) : l'.toServer = l.toServer.send l.client.enterLine.toList := by
  cases h
  show l.toServer.send _ = _
  rw [Client.textCommitted_onEnter hb]

/-- Nothing but Enter sends a line. -/
theorem LinkStep.toServer_other {le : LinkEvent} (h : LinkStep classes l le l')
    (hne : le ≠ .commit .onEnter) : l'.toServer = l.toServer := by
  cases h with
  | @commit commitMethod =>
      have hm : commitMethod ≠ .onEnter := fun heq => hne (congrArg _ heq)
      show l.toServer.send _ = _
      rw [Client.textCommitted_other hm, Channel.send_nil]
  | _ => rfl

theorem enteredLine_other {le : LinkEvent} (hne : t = pc → le ≠ .commit .onEnter) :
    enteredLine pc n (.link t le) = none := by
  unfold enteredLine
  split
  · next heq =>
      cases heq
      exact if_neg fun ht => hne ht rfl
  · rfl

/-- A step is no business of the channel of `pc` unless a line of `pc` is entered or handled. -/
theorem NetMove.toServer (pc : Nat) (hbound : n.EachLink fun _ l => l.client.BoundOnce)
    (hm : NetMove acc classes n e n') :
    (∃ line, handledLine pc n e = some line ∧ enteredLine pc n e = none ∧
      (n.toServer pc).receive = some (line, n'.toServer pc)) ∨
    (handledLine pc n e = none ∧ n'.toServer pc = (n.toServer pc).send (enteredLine pc n e).toList) := by
  cases hm with
  | beginPlay => exact Or.inr ⟨rfl, Channel.send_nil.symm⟩
  | @login hasPlayerState b s hs =>
      exact Or.inr ⟨rfl, (toServer_newcomer s b).trans Channel.send_nil.symm⟩
  | logout => exact Or.inr ⟨rfl, toServer_serve.trans Channel.send_nil.symm⟩
  | tick => exact Or.inr ⟨rfl, toServer_serve.trans Channel.send_nil.symm⟩
  | replicate => exact Or.inr ⟨rfl, toServer_modify.trans Channel.send_nil.symm⟩
  | @chatCall t l line ch s hb hpc hl hr hs =>
      rw [toServer_serve, handledLine_chatCall hl hr]
      by_cases ht : t = pc
      · subst ht
        refine Or.inl ⟨line, if_pos rfl, rfl, ?_⟩
        rw [toServer_some hl, toServer_some (getElem?_setLink_self hl), hr]
      · exact Or.inr ⟨if_neg ht, (toServer_setLink_ne ht).trans Channel.send_nil.symm⟩
  | @link t le l l' hpc hl ha hs =>
      refine Or.inr ⟨rfl, ?_⟩
      by_cases ht : t = pc
      · subst ht
        rw [toServer_some hl, toServer_some (getElem?_setLink_self hl)]
        by_cases hle : le = .commit .onEnter
        · subst hle
          rw [(LinkStep.of_step ha hs).toServer_onEnter (hbound t l hl hpc)]
          show _ = l.toServer.send (if t = t then n.links[t]?.bind _ else none).toList
          rw [if_pos rfl, hl]
          rfl
        · rw [(LinkStep.of_step ha hs).toServer_other hle, enteredLine_other fun _ => hle]
          exact Channel.send_nil.symm
      · rw [enteredLine_other fun heq => absurd heq ht]
        exact (toServer_setLink_ne ht).trans Channel.send_nil.symm

end ToServer

/-- **The run lemma.** What is handled has been delivered, and what is entered has been sent. -/
theorem toServer_of_run {n₀ : Network} (h : (network acc classes).Reachable n₀)
    {es : List NetEvent} (hrun : (network acc classes).Run n₀ es n) :
    (n.toServer pc).delivered
        = (n₀.toServer pc).delivered ++ (network acc classes).trace (handledLine pc) n₀ es ∧
      (n.toServer pc).history
        = (n₀.toServer pc).history ++ (network acc classes).trace (enteredLine pc) n₀ es := by
  have hhandled : (network acc classes).Reachable n ∧ (n.toServer pc).delivered
      = (n₀.toServer pc).delivered ++ ([] ++ (network acc classes).trace (handledLine pc) n₀ es) :=
    hrun.trace_invariant (I := fun n lines => (network acc classes).Reachable n ∧
      (n.toServer pc).delivered = (n₀.toServer pc).delivered ++ lines) ?_
      ⟨h, (List.append_nil _).symm⟩
  have hentered : (network acc classes).Reachable n ∧ (n.toServer pc).history
      = (n₀.toServer pc).history ++ ([] ++ (network acc classes).trace (enteredLine pc) n₀ es) :=
    hrun.trace_invariant (I := fun n lines => (network acc classes).Reachable n ∧
      (n.toServer pc).history = (n₀.toServer pc).history ++ lines) ?_
      ⟨h, (List.append_nil _).symm⟩
  · exact ⟨hhandled.2, hentered.2⟩
  · rintro n e n' lines ⟨hr, hlines⟩ ha hs
    refine ⟨hr.step ha hs, ?_⟩
    rcases (NetMove.of_step ha hs).toServer pc (boundOnce_of_reachable hr) with
      ⟨line, -, hnone, hreceive⟩ | ⟨-, heq⟩
    · rw [Channel.history_receive hreceive, hnone, hlines]
      simp
    · rw [heq, Channel.history_send, hlines, List.append_assoc]
  · rintro n e n' lines ⟨hr, hlines⟩ ha hs
    refine ⟨hr.step ha hs, ?_⟩
    rcases (NetMove.of_step ha hs).toServer pc (boundOnce_of_reachable hr) with
      ⟨line, hsome, -, hreceive⟩ | ⟨hnone, heq⟩
    · rw [(Channel.receive_eq_some.mp hreceive).2, hsome, hlines, List.append_assoc]
      rfl
    · rw [heq, Channel.delivered_send, hnone, hlines]
      simp

/-- **Lines arrive in order.** Over any run from any network reached, the lines of a player that the game mode
    handles, and after them those still under way, are the lines that were under way and after them those
    the player then enters, at most one for each Enter: none is lost, doubled, made up or overtaken by
    another. -/
theorem lines_arrive_in_order {n₀ : Network} (h : (network acc classes).Reachable n₀)
    {es : List NetEvent} (hrun : (network acc classes).Run n₀ es n) :
    (network acc classes).trace (handledLine pc) n₀ es ++ (n.toServer pc).inFlight =
      (n₀.toServer pc).inFlight ++ (network acc classes).trace (enteredLine pc) n₀ es := by
  have ⟨hdelivered, hhistory⟩ := @toServer_of_run _ _ _ pc _ h _ hrun
  rw [Channel.history, Channel.history, hdelivered, List.append_assoc, List.append_assoc] at hhistory
  exact List.append_cancel_left hhistory

/-- Two lines entered, of which the first has been handled. -/
theorem lines_arrive_in_order_first :
    let es := arrives 0 ++ enters 0 (text "456") ++ [.link 0 (.edit (text "hi")), .link 0 (.commit .onEnter)]
    ∃ n, (network .yieldsNull plainClasses).Run emptyNetwork es n ∧
      (network .yieldsNull plainClasses).trace (handledLine 0) emptyNetwork es
        = [text "Player1(0/3): 456"] ∧
      (network .yieldsNull plainClasses).trace (enteredLine 0) emptyNetwork es
        = [text "Player1(0/3): 456", text "Player1(0/3): hi"] ∧
      (network .yieldsNull plainClasses).trace (handledLine 0) emptyNetwork es ++ (n.toServer 0).inFlight
        = (emptyNetwork.toServer 0).inFlight ++
          (network .yieldsNull plainClasses).trace (enteredLine 0) emptyNetwork es := by
  intro es
  obtain ⟨n, hrun, -⟩ := Run.exists_view (M := network .yieldsNull plainClasses) (s := emptyNetwork) es
    (fun _ => ()) (b := ()) (by decide +kernel)
  exact ⟨n, hrun, by decide +kernel, by decide +kernel,
    lines_arrive_in_order emptyNetwork_reachable hrun⟩

end NumberBaseball
