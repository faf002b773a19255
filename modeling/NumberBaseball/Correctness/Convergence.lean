import NumberBaseball.Correctness.Screens

/-!
# `Correctness.Convergence` — the clients can always be brought up to date

Updates may be lost and messages may wait for as long as they like, but nothing that has happened keeps a
client from catching up. From every network reached some run of replication and delivery alone, which
neither disturbs the server nor touches a line on its way to it, leads to a network in which nothing is
under way to any client, every replica is the server's own value, and every screen shows the whole
conversation since its player joined (`clients_catch_up`). The one thing it takes is a blueprint with a timer widget.

The proof empties one connection after the other with the draining rule.
-/

namespace NumberBaseball

open World Machine

variable {acc : DeadAccess} {classes : WidgetClasses} {n n' : Network} {pc : Nat}

/-! ## One connection by itself -/

/-- A connection as a machine of its own. -/
def connection (classes : WidgetClasses) : Machine Link LinkEvent Fault where
  init l      := l = Link.new
  allowed l e := l.admits e = true
  step        := Link.step classes

theorem setLink_self {l : Link} (hl : n.links[pc]? = some l) : n.setLink pc l = n := by
  obtain ⟨hlt, rfl⟩ := List.getElem?_eq_some_iff.mp hl
  unfold Network.setLink
  rw [List.set_getElem_self hlt]

theorem setLink_setLink (l l' : Link) : (n.setLink pc l).setLink pc l' = n.setLink pc l' := by
  unfold Network.setLink
  rw [List.set_set]

/-- What a connection can do by itself it can do in the network. -/
theorem run_link {l l' : Link} {es : List LinkEvent} (h : (connection classes).Run l es l')
    (hpc : n.server.isConnected pc = true) (hlt : pc < n.links.length) :
    (network acc classes).Run (n.setLink pc l) (es.map (.link pc)) (n.setLink pc l') := by
  induction h with
  | nil => exact .nil
  | @cons l l₁ l' e es ha hs _ ih =>
      have hl : (n.setLink pc l).links[pc]? = some l := List.getElem?_set_self hlt
      have hadm : (n.setLink pc l).admits (.link pc e) = true := by
        have ha : l.admits e = true := ha
        show ((n.setLink pc l).server.isConnected pc && (n.setLink pc l).links[pc]?.any _) = true
        rw [hl, show (n.setLink pc l).server = n.server from rfl, hpc]
        exact ha
      have hstep : (n.setLink pc l).step acc classes (.link pc e) = .ok (n.setLink pc l₁) := by
        simp only [Network.step, hl]
        rw [show l.step classes e = .ok l₁ from hs, Except.ok_bind, setLink_setLink]
      exact .cons hadm hstep ih

theorem leads_link {l l' : Link} (h : (connection classes).Leads l l')
    (hpc : n.server.isConnected pc = true) (hlt : pc < n.links.length) :
    (network acc classes).Leads (n.setLink pc l) (n.setLink pc l') := by
  obtain ⟨es, h⟩ := h
  exact ⟨_, run_link h hpc hlt⟩

/-- The properties of an actor can be sent at any time. -/
theorem leads_replicate {l : Link} {actor : Replicated} {u : Update}
    (hpc : n.server.isConnected pc = true) (hlt : pc < n.links.length)
    (hu : n.server.snapshot pc actor = some u) :
    (network acc classes).Leads (n.setLink pc l) (n.setLink pc { l with updates := l.updates ++ [u] }) := by
  have hadm : (n.setLink pc l).admits (.replicate pc actor) = true := hpc
  refine ⟨_, .single hadm ?_⟩
  have hmodify : (n.links.set pc l).modify pc (fun l : Link => { l with updates := l.updates ++ [u] })
      = n.links.set pc { l with updates := l.updates ++ [u] } := by
    rw [List.modify_eq_set_getElem?, List.getElem?_set_self hlt]
    exact List.set_set ..
  show Except.ok _ = Except.ok { n with links := n.links.set pc { l with updates := l.updates ++ [u] } }
  rw [← hmodify]
  simp only [Network.setLink, hu, Option.toList_some]

/-! ## Replicas -/

/-- The client's replicas are what the server has. -/
structure Client.Current (s : World) (pc : Nat) (c : Client) : Prop where
  valid       : c.controller.isValid = true
  controller  : s.snapshot pc .controller = some (.controller c.controller.notificationText)
  playerState : s.snapshot pc .playerState = c.controller.playerState.map .playerState
  gameState   : c.remainingTime = some s.remainingTime

/-- Whether a client is current depends on its replicas alone. -/
theorem Client.Current.congr {s : World} {c c' : Client} (h : c.Current s pc)
    (hc : c'.controller = c.controller) (ht : c'.remainingTime = c.remainingTime) : c'.Current s pc where
  valid := by rw [hc, h.valid]
  controller := by rw [hc, h.controller]
  playerState := by rw [hc, h.playerState]
  gameState := by rw [ht, h.gameState]

/-- Updates concern nothing but the replicas. -/
theorem receiveUpdates_eq (us : List Update) : ∀ c : Client, ∃ controller remainingTime,
    us.foldl Client.receiveUpdate c
      = { c with controller := controller, remainingTime := remainingTime } := by
  induction us with
  | nil => exact fun c => ⟨_, _, rfl⟩
  | cons u us ih =>
      intro c
      obtain ⟨controller, remainingTime, heq⟩ := ih (c.receiveUpdate u)
      refine ⟨controller, remainingTime, ?_⟩
      rw [List.foldl_cons, heq]
      cases u <;> rfl

/-- The server's properties as they are sent to the client of `pc`. -/
theorem exists_snapshots {s : World} (hseated : Seated s.allPlayerControllers)
    (hpc : s.isConnected pc = true) : ∃ notificationText ps,
    s.snapshot pc .controller = some (.controller notificationText) ∧
    s.snapshot pc .playerState = some (.playerState ps) := by
  obtain ⟨c, hc, hv⟩ := isConnected_iff.mp hpc
  obtain ⟨ps, hps, -⟩ := hseated pc c hc hv
  unfold HwPlayerController.state? at hps
  rw [if_pos hv] at hps
  exact ⟨c.notificationText, ps, by simp [World.snapshot, hc], by simp [World.snapshot, hc, hps]⟩

/-- A client is current when the last three updates it got were the server's present properties. -/
theorem current_of_updates {s : World} {notificationText : FString} {ps : HwPlayerState}
    (hc : s.snapshot pc .controller = some (.controller notificationText))
    (hp : s.snapshot pc .playerState = some (.playerState ps)) (us : List Update) (c : Client) :
    Client.Current s pc ((us ++ [Update.controller notificationText, Update.playerState ps,
      Update.gameState s.remainingTime]).foldl Client.receiveUpdate c) := by
  rw [List.foldl_append]
  exact ⟨rfl, hc, hp, rfl⟩

/-! ## Emptying a connection -/

/-- What is known of a connection while its updates arrive: `c` is what they will make of the client. -/
structure Link.Updating (start : Link) (c : Client) (l : Link) : Prop where
  client : l.updates.foldl Client.receiveUpdate l.client = c
  rest   : l = { start with client := l.client, updates := l.updates }

/-- All updates under way arrive. -/
theorem leads_updates (classes : WidgetClasses) (start : Link) : (connection classes).Leads start
    { start with client := start.updates.foldl Client.receiveUpdate start.client, updates := [] } := by
  have hstep : ∀ l : Link, start.Updating (start.updates.foldl Client.receiveUpdate start.client) l →
      0 < l.updates.length → ∃ e l', (connection classes).allowed l e ∧
        (connection classes).step l e = .ok l' ∧
        start.Updating (start.updates.foldl Client.receiveUpdate start.client) l' ∧
        l'.updates.length < l.updates.length := by
    intro l ⟨hclient, hrest⟩ hpos
    cases hu : l.updates with
    | nil =>
        rw [hu] at hpos
        cases hpos
    | cons u us =>
        have hadm : l.admits .update = true := by simp [Link.admits, hu]
        have hs : l.step classes .update
            = .ok { l with client := l.client.receiveUpdate u, updates := us } := by
          simp only [Link.step, hu]
        refine ⟨.update, _, hadm, hs, ⟨?_, ?_⟩, ?_⟩
        · rw [← hclient, hu]
          rfl
        · rw [hrest]
        · simp
  obtain ⟨l, hleads, ⟨hclient, hrest⟩, hempty⟩ :=
    Leads.drain _ (fun l : Link => l.updates.length) hstep start ⟨rfl, rfl⟩
  have hnil : l.updates = [] := List.length_eq_zero_iff.mp hempty
  rw [hnil] at hclient hrest
  rw [hrest, show l.client = _ from hclient] at hleads
  exact hleads

/-- With a timer widget no call goes wrong, and there is one still. -/
theorem Client.execute_ok {c : Client} (htimer : c.timerTextWidgetInstance ≠ none) (call : Rpc) :
    ∃ screen log timer, timer ≠ none ∧ c.execute call
      = .ok { c with screen := screen, log := log, timerTextWidgetInstance := timer } := by
  cases hc : c.execute call with
  | error f => exact absurd (Client.execute_error.mp ⟨f, hc⟩).2.2.2 htimer
  | ok c' =>
      obtain ⟨screen, log, timer, rfl⟩ := Client.execute_eq hc
      refine ⟨screen, log, timer, ?_, rfl⟩
      rcases Client.execute_timer hc with hsame | ⟨old, v, -, -, hnew⟩
      · rwa [show timer = _ from hsame]
      · rw [show timer = _ from hnew]
        exact nofun

/-- What is known of a connection while calls arrive: they print, and the timer is set. -/
structure Link.Calling (start l : Link) : Prop where
  client     : ∃ screen log timer, timer ≠ none ∧ l.client
    = { start.client with screen := screen, log := log, timerTextWidgetInstance := timer }
  toServer   : l.toServer = start.toServer
  updates    : l.updates = start.updates
  controller : l.fromController.history = start.fromController.history
  gameState  : l.fromGameState.history = start.fromGameState.history

theorem Link.Calling.execute {start l : Link} (h : start.Calling l) (call : Rpc)
    {fromController fromGameState : Channel Rpc}
    (hcontroller : fromController.history = l.fromController.history)
    (hgameState : fromGameState.history = l.fromGameState.history) :
    ∃ c, l.client.execute call = .ok c ∧ start.Calling { l with
      client := c, fromController := fromController, fromGameState := fromGameState } := by
  obtain ⟨screen, log, timer, htimer, hclient⟩ := h.client
  obtain ⟨screen', log', timer', htimer', hexec⟩ :=
    Client.execute_ok (c := l.client) (by rw [hclient]; exact htimer) call
  refine ⟨_, hexec, ⟨screen', log', timer', htimer', ?_⟩, h.toServer, h.updates,
    hcontroller.trans h.controller, hgameState.trans h.gameState⟩
  show ({ l.client with screen := screen', log := log', timerTextWidgetInstance := timer' } : Client) = _
  rw [hclient]

/-- As long as a call is under way, one can arrive. -/
theorem Link.Calling.deliver {start l : Link} (h : start.Calling l)
    (hvalid : start.client.controller.isValid = true) (htime : start.client.remainingTime.isSome = true)
    (hpos : 0 < l.fromController.inFlight.length + l.fromGameState.inFlight.length) :
    ∃ e l', (connection classes).allowed l e ∧ (connection classes).step l e = .ok l' ∧ start.Calling l' ∧
      l'.fromController.inFlight.length + l'.fromGameState.inFlight.length
        < l.fromController.inFlight.length + l.fromGameState.inFlight.length := by
  obtain ⟨screen, log, timer, -, hclient⟩ := h.client
  have hvalid : l.client.controller.isValid = true := by rw [hclient]; exact hvalid
  have htime : l.client.remainingTime.isSome = true := by rw [hclient]; exact htime
  cases hr : l.fromController.receive with
  | some p =>
      obtain ⟨call, ch⟩ := p
      have hfly := (Channel.receive_eq_some.mp hr).1
      obtain ⟨c, hexec, hcalling⟩ := h.execute call (Channel.history_receive hr)
        (show l.fromGameState.history = _ from rfl)
      have hadm : l.admits .controllerCall = true := by simp [Link.admits, hvalid, hfly]
      have hs : l.step classes .controllerCall = .ok { l with client := c, fromController := ch } := by
        simp only [Link.step, hr, hexec, Except.ok_bind]
      refine ⟨.controllerCall, _, hadm, hs, hcalling, ?_⟩
      rw [hfly, List.length_cons]
      show ch.inFlight.length + l.fromGameState.inFlight.length < _
      omega
  | none =>
      -- the controller's channel is empty, so something comes through the game state
      have hnone := Channel.receive_eq_none.mp hr
      cases hr' : l.fromGameState.receive with
      | none =>
          rw [hnone, Channel.receive_eq_none.mp hr'] at hpos
          cases hpos
      | some p =>
          obtain ⟨call, ch⟩ := p
          have hfly := (Channel.receive_eq_some.mp hr').1
          obtain ⟨c, hexec, hcalling⟩ := h.execute call
            (show l.fromController.history = _ from rfl) (Channel.history_receive hr')
          have hadm : l.admits .gameStateCall = true := by simp [Link.admits, htime, hfly]
          have hs : l.step classes .gameStateCall = .ok { l with client := c, fromGameState := ch } := by
            simp only [Link.step, hr', hexec, Except.ok_bind]
          refine ⟨.gameStateCall, _, hadm, hs, hcalling, ?_⟩
          rw [hfly, List.length_cons]
          show l.fromController.inFlight.length + ch.inFlight.length < _
          omega

/-- All calls under way arrive, on a machine that is ready for them. -/
theorem leads_calls (classes : WidgetClasses) (start : Link) (hvalid : start.client.controller.isValid = true)
    (htime : start.client.remainingTime.isSome = true)
    (htimer : start.client.timerTextWidgetInstance ≠ none) :
    ∃ l, (connection classes).Leads start l ∧ start.Calling l ∧
      l.fromController.inFlight = [] ∧ l.fromGameState.inFlight = [] := by
  obtain ⟨l, hleads, hcalling, hempty⟩ := Leads.drain (M := connection classes) start.Calling
    (fun l => l.fromController.inFlight.length + l.fromGameState.inFlight.length)
    (fun l h => h.deliver hvalid htime) start ⟨⟨_, _, _, htimer, rfl⟩, rfl, rfl, rfl, rfl⟩
  exact ⟨l, hleads, hcalling, List.length_eq_zero_iff.mp (by omega), List.length_eq_zero_iff.mp (by omega)⟩

/-- `BeginPlay` runs if it has not run, and after it there is a timer widget. -/
theorem leads_beginPlay (start : Link) (hclass : classes.timerTextWidgetClass ≠ none)
    (hremote : start.client.Remote) (hvalid : start.client.controller.isValid = true)
    (hmade : start.client.TimerAsMade classes) : ∃ c, c.begunPlay = true ∧
      c.timerTextWidgetInstance ≠ none ∧ c.controller = start.client.controller ∧
      c.remainingTime = start.client.remainingTime ∧
      (connection classes).Leads start { start with client := c } := by
  have hthere : ∀ {c : Client}, c.begunPlay = true → c.TimerAsMade classes →
      c.timerTextWidgetInstance ≠ none := by
    intro c hb hmade hnone
    rcases hmade.mp hnone with hno | hno
    · rw [hb] at hno
      cases hno
    · exact hclass hno
  cases hb : start.client.begunPlay with
  | true => exact ⟨start.client, hb, hthere hb hmade, rfl, rfl, .refl start⟩
  | false =>
      obtain ⟨w, heq⟩ := hremote.beginPlay_eq classes
      have hadm : start.admits .beginPlay = true := by simp [Link.admits, hvalid, hb]
      refine ⟨start.client.beginPlay classes, ?_, hthere ?_ (hmade.beginPlay hremote), ?_, ?_,
        ⟨_, .single hadm rfl⟩⟩ <;> rw [heq]

/-- Nothing is under way to the client, and it is current. -/
structure Link.CaughtUp (s : World) (pc : Nat) (l : Link) : Prop where
  current    : l.client.Current s pc
  begun      : l.client.begunPlay = true
  updates    : l.updates = []
  controller : l.fromController.inFlight = []
  gameState  : l.fromGameState.inFlight = []

/-- All replicas are brought up to date. -/
theorem leads_current (h : (network acc classes).Reachable n) {l : Link} (hl : n.links[pc]? = some l)
    (hpc : n.server.isConnected pc = true) : ∃ c, c.Current n.server pc ∧ c.Remote ∧
      c.TimerAsMade classes ∧
      (network acc classes).Leads n (n.setLink pc { l with client := c, updates := [] }) := by
  have hlt : pc < n.links.length := (List.getElem?_eq_some_iff.mp hl).1
  obtain ⟨notificationText, ps, hc, hp⟩ := exists_snapshots (phase_of_reachable h).seated hpc
  have hremote := remote_of_reachable h pc l hl hpc
  have hmade : l.client.TimerAsMade classes := timerAsMade_of_reachable h pc l hl hpc
  -- everything is replicated once more, after what is still under way
  let us := l.updates ++ [.controller notificationText, .playerState ps, .gameState n.server.remainingTime]
  have hreplicated : (network acc classes).Leads n (n.setLink pc { l with updates := us }) := by
    have hstart : (network acc classes).Leads n (n.setLink pc l) := by
      rw [setLink_self hl]
      exact .refl n
    have hall := ((hstart.trans (leads_replicate hpc hlt hc)).trans (leads_replicate hpc hlt hp)).trans
      (leads_replicate hpc hlt (show n.server.snapshot pc .gameState = some _ from rfl))
    simpa [us] using hall
  -- it arrives, and touches nothing but the replicas
  have harrived := leads_updates classes { l with updates := us }
  obtain ⟨controller, remainingTime, heq⟩ := receiveUpdates_eq us l.client
  refine ⟨us.foldl Client.receiveUpdate l.client, current_of_updates hc hp l.updates l.client, ?_, ?_,
    hreplicated.trans (leads_link harrived hpc hlt)⟩
  · rw [heq]
    exact ⟨hremote.netMode, hremote.isLocal⟩
  · rw [heq]
    exact hmade

/-- **One client catches up.** -/
theorem leads_caughtUp (h : (network acc classes).Reachable n) (hclass : classes.timerTextWidgetClass ≠ none)
    {l : Link} (hl : n.links[pc]? = some l) (hpc : n.server.isConnected pc = true) :
    ∃ l', (network acc classes).Leads n (n.setLink pc l') ∧ l'.CaughtUp n.server pc ∧
      l'.toServer = l.toServer := by
  have hlt : pc < n.links.length := (List.getElem?_eq_some_iff.mp hl).1
  obtain ⟨c₁, hcurrent, hremote, hmade, hreplicated⟩ := leads_current h hl hpc
  -- play begins, and the calls come in
  obtain ⟨c₂, hbegun, htimer, hcontroller, htime, hplay⟩ :=
    leads_beginPlay { l with client := c₁, updates := [] } hclass hremote hcurrent.valid hmade
  have hcurrent₂ : c₂.Current n.server pc := hcurrent.congr hcontroller htime
  obtain ⟨l', hcalled, hcalling, hcalls, hlogins⟩ := leads_calls classes
    { l with client := c₂, updates := [] } hcurrent₂.valid (by rw [hcurrent₂.gameState]; rfl) htimer
  obtain ⟨screen, log, timer, -, hclient⟩ := hcalling.client
  refine ⟨l', hreplicated.trans (leads_link (hplay.trans hcalled) hpc hlt), ⟨?_, ?_, hcalling.updates,
    hcalls, hlogins⟩, hcalling.toServer⟩
  · exact hcurrent₂.congr (by rw [hclient]) (by rw [hclient])
  · rw [hclient]
    exact hbegun

/-! ## All of them -/

/-- From `n` to `n'` only what is under way to the clients, and the clients, have changed. -/
structure Network.Delivers (acc : DeadAccess) (classes : WidgetClasses) (n n' : Network) : Prop where
  leads    : (network acc classes).Leads n n'
  server   : n'.server = n.server
  begun    : n'.begun = n.begun
  toServer : ∀ pc, n'.toServer pc = n.toServer pc

theorem Network.Delivers.setLink {l l' : Link} (h : n.Delivers acc classes n')
    (hl : n'.links[pc]? = some l) (hleads : (network acc classes).Leads n' (n'.setLink pc l'))
    (hto : l'.toServer = l.toServer) : n.Delivers acc classes (n'.setLink pc l') where
  leads := h.leads.trans hleads
  server := h.server
  begun := h.begun
  toServer other := by
    rw [← h.toServer other]
    by_cases hother : pc = other
    · subst hother
      rw [toServer_some hl, toServer_some (getElem?_setLink_self hl), hto]
    · unfold Network.toServer
      rw [getElem?_setLink_ne hother]

/-- The clients of the first `k` players catch up, one after the other. -/
theorem leads_caughtUp_below (h : (network acc classes).Reachable n)
    (hclass : classes.timerTextWidgetClass ≠ none) (k : Nat) :
    ∃ n', n.Delivers acc classes n' ∧
      ∀ pc l, n'.links[pc]? = some l → n.server.isConnected pc = true → pc < k →
        l.CaughtUp n.server pc := by
  induction k with
  | zero => exact ⟨n, ⟨.refl n, rfl, rfl, fun _ => rfl⟩, fun _ _ _ _ hlt => absurd hlt (Nat.not_lt_zero _)⟩
  | succ k ih =>
      obtain ⟨n', hn', hbelow⟩ := ih
      by_cases hopen : n.server.isConnected k = true ∧ ∃ l, n'.links[k]? = some l
      · obtain ⟨hpc, l, hl⟩ := hopen
        obtain ⟨es, hrun⟩ := hn'.leads
        obtain ⟨l', hleads, hcaught, hto⟩ := leads_caughtUp (h.run hrun) hclass hl (hn'.server ▸ hpc)
        refine ⟨n'.setLink k l', hn'.setLink hl hleads hto, fun pc m hm hconn hlt => ?_⟩
        by_cases hpck : k = pc
        · subst hpck
          rw [getElem?_setLink_self hl] at hm
          obtain rfl := Option.some.inj hm
          rw [← hn'.server]
          exact hcaught
        · rw [getElem?_setLink_ne hpck] at hm
          exact hbelow pc m hm hconn (by omega)
      · -- nobody there
        refine ⟨n', hn', fun pc m hm hconn hlt => ?_⟩
        by_cases hpck : pc = k
        · subst hpck
          exact absurd ⟨hconn, m, hm⟩ hopen
        · exact hbelow pc m hm hconn (by omega)

/-- **The clients catch up.** From every network reached, if the blueprint names a timer widget, a run that
    neither changes the server nor lets anything arrive there leads to a network in which every connected
    client is current and has been delivered every call ever made to its player, every screen shows the
    whole conversation its player has been sent, and of any two players the later one's screen shows exactly
    the end of the conversation on the screen of the earlier one. -/
theorem clients_catch_up (h : (network acc classes).Reachable n)
    (hclass : classes.timerTextWidgetClass ≠ none) :
    ∃ n', n.Delivers acc classes n' ∧
      (n'.EachLink fun pc l => l.CaughtUp n.server pc ∧
        l.fromController.delivered = n.server.sent.filter (·.owner == some pc) ∧
        conversation l.client.screen = publicHeard pc n.server.sent) ∧
      ∀ i j li lj, i ≤ j → n.server.isConnected i = true → n.server.isConnected j = true →
        n'.links[i]? = some li → n'.links[j]? = some lj →
        conversation lj.client.screen <:+ conversation li.client.screen := by
  obtain ⟨n', hn', hall⟩ := leads_caughtUp_below h hclass n.server.allPlayerControllers.length
  obtain ⟨es, hrun⟩ := hn'.leads
  have hr := h.run hrun
  have hdelivered : n'.EachLink fun pc l => l.CaughtUp n.server pc ∧
      l.fromController.delivered = n.server.sent.filter (·.owner == some pc) ∧
      conversation l.client.screen = publicHeard pc n.server.sent := by
    intro pc l hl hpc
    have hpc' : n.server.isConnected pc = true := hn'.server ▸ hpc
    have hcaught := hall pc l hl hpc' (isConnected_lt hpc')
    have hw := (shows_of_reachable hr pc l hl hpc).1
    have hcalls : l.fromController.delivered = n.server.sent.filter (·.owner == some pc) := by
      rw [Channel.delivered_eq_history hcaught.controller, hw.controller, hn'.server]
    refine ⟨hcaught, hcalls, ?_⟩
    rw [conversation_screen hr hl hpc, hcalls]
    unfold publicHeard
    rw [heard_filter_owner]
  refine ⟨n', hn', hdelivered, ?_⟩
  intro i j li lj hij hi hj hli hlj
  rw [(hdelivered i li hli (hn'.server ▸ hi)).2.2, (hdelivered j lj hlj (hn'.server ▸ hj)).2.2]
  exact (phase_of_reachable h).told.agree i j hij hi hj

/-- Two players, of whom the second comes after the first line and has not even begun to play: both screens will
    show the second line. -/
theorem clients_catch_up_late :
    let es := arrives 0 ++ enters 0 (text "hello") ++ [.login true false] ++ enters 0 (text "hi")
    ∃ n n', (network .yieldsNull plainClasses).Run emptyNetwork es n ∧
      (n.links[1]?.map fun l => l.client.begunPlay) = some false ∧
      n.Delivers .yieldsNull plainClasses n' ∧
      ∃ li lj, n'.links[0]? = some li ∧ n'.links[1]? = some lj ∧
        li.CaughtUp n.server 0 ∧ lj.CaughtUp n.server 1 ∧
        conversation li.client.screen = [text "Player1(0/3): hello", text "Player1(0/3): hi"] ∧
        conversation lj.client.screen = [text "Player1(0/3): hi"] ∧
        conversation lj.client.screen <:+ conversation li.client.screen := by
  intro es
  obtain ⟨n, hrun, hview⟩ := Run.exists_view (M := network .yieldsNull plainClasses) (s := emptyNetwork) es
    (fun n => (publicHeard 0 n.server.sent, publicHeard 1 n.server.sent,
      n.links[1]?.map (·.client.begunPlay), n.server.isConnected 0, n.server.isConnected 1))
    (b := ([text "Player1(0/3): hello", text "Player1(0/3): hi"], [text "Player1(0/3): hi"],
      some false, true, true)) (by decide +kernel)
  simp only [Prod.mk.injEq] at hview
  obtain ⟨h0, h1, hwaits, hi, hj⟩ := hview
  have hr := emptyNetwork_reachable.run hrun
  obtain ⟨n', hn', hall, hend⟩ := clients_catch_up hr (by decide)
  have hlink : ∀ pc, n.server.isConnected pc = true → ∃ l, n'.links[pc]? = some l := by
    intro pc hpc
    obtain ⟨es', hrun'⟩ := hn'.leads
    have hlt : pc < n'.links.length := by
      rw [links_length (hr.run hrun'), hn'.server]
      exact isConnected_lt hpc
    exact ⟨_, List.getElem?_eq_getElem hlt⟩
  obtain ⟨li, hli⟩ := hlink 0 hi
  obtain ⟨lj, hlj⟩ := hlink 1 hj
  obtain ⟨hci, -, hsi⟩ := hall 0 li hli (hn'.server ▸ hi)
  obtain ⟨hcj, -, hsj⟩ := hall 1 lj hlj (hn'.server ▸ hj)
  exact ⟨n, n', hrun, hwaits, hn', li, lj, hli, hlj, hci, hcj, hsi.trans h0, hsj.trans h1,
    hend 0 1 li lj (by decide) hi hj hli hlj⟩

end NumberBaseball
