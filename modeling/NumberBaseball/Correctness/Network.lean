import NumberBaseball.Correctness.Calls

/-!
# `Correctness.Network` — the server inside the network, and the rule for one connection

A step of the network is an event of the server, or `BeginPlay`, or does not concern the server at all
(`ServerMove`). So what is seen of the server in a run of the network is a run of the game
(`network_refines_game`), and everything proved of the game holds of the server in the network.

A connection goes through a step in one of five ways (`LinkMove`). `link_invariant` is the rule every
statement about the clients rests on: what holds of a newcomer's connection and survives these five ways
holds of every open connection of every network reached. `link_trace_invariant` is the same rule for
statements that also look back on what has happened on a player's machine.
-/

namespace NumberBaseball

open World Machine

variable {acc : DeadAccess} {classes : WidgetClasses} {n n' : Network} {e : NetEvent} {pc : Nat}

/-! ## Moves of the network -/

/-- `NetMove acc classes n e n'`: what the admitted event `e` does to the network `n`. -/
inductive NetMove (acc : DeadAccess) (classes : WidgetClasses) (n : Network) : NetEvent → Network → Prop
  | beginPlay {s : World} (hwait : n.begun = false) (hs : beginPlay n.server = .ok s) :
      NetMove acc classes n .beginPlay { n with server := s, begun := true }
  | login {hasPlayerState reachesNewcomer : Bool} {s : World}
      (hs : handle acc n.server (.login hasPlayerState) = .ok s) :
      NetMove acc classes n (.login hasPlayerState reachesNewcomer)
        { n.serve s with links := (n.serve s).links ++ [n.newcomer s reachesNewcomer] }
  | logout {pc : Nat} {s : World} (hpc : n.server.isConnected pc = true)
      (hs : handle acc n.server (.logout pc) = .ok s) :
      NetMove acc classes n (.logout pc) (n.serve s)
  | tick {s : World} (hb : n.begun = true) (hs : handle acc n.server .tick = .ok s) :
      NetMove acc classes n .tick (n.serve s)
  | chatCall {pc : Nat} {l : Link} {line : FString} {ch : Channel FString} {s : World}
      (hb : n.begun = true) (hpc : n.server.isConnected pc = true) (hl : n.links[pc]? = some l)
      (hr : l.toServer.receive = some (line, ch))
      (hs : handle acc n.server (.chat pc line) = .ok s) :
      NetMove acc classes n (.chatCall pc)
        ((n.setLink pc { l with toServer := ch }).serve s)
  | replicate {pc : Nat} {actor : Replicated} (hpc : n.server.isConnected pc = true) :
      NetMove acc classes n (.replicate pc actor) { n with links := n.links.modify pc fun l =>
        { l with updates := l.updates ++ (n.server.snapshot pc actor).toList } }
  | link {pc : Nat} {e : LinkEvent} {l l' : Link} (hpc : n.server.isConnected pc = true)
      (hl : n.links[pc]? = some l) (ha : l.admits e = true) (hs : l.step classes e = .ok l') :
      NetMove acc classes n (.link pc e) (n.setLink pc l')

/-- **The inversion lemma.** An admitted step that succeeds is a move. -/
theorem NetMove.of_step (ha : n.admits e = true) (hs : n.step acc classes e = .ok n') :
    NetMove acc classes n e n' := by
  cases e with
  | beginPlay =>
      obtain ⟨s, hb, hs⟩ := Except.bind_eq_ok.mp hs
      obtain rfl := Except.ok.inj hs
      exact .beginPlay (by simpa [Network.admits] using ha) hb
  | login hasPlayerState reachesNewcomer =>
      obtain ⟨s, hh, hs⟩ := Except.bind_eq_ok.mp hs
      obtain rfl := Except.ok.inj hs
      exact .login hh
  | logout t =>
      obtain ⟨s, hh, hs⟩ := Except.bind_eq_ok.mp hs
      obtain rfl := Except.ok.inj hs
      exact .logout ha hh
  | tick =>
      obtain ⟨s, hh, hs⟩ := Except.bind_eq_ok.mp hs
      obtain rfl := Except.ok.inj hs
      exact .tick ha hh
  | chatCall t =>
      simp only [Network.admits, Bool.and_eq_true, Option.any_eq_true] at ha
      obtain ⟨⟨hb, hpc⟩, l, hl, hfly⟩ := ha
      simp only [Network.step, hl] at hs
      cases hr : l.toServer.receive with
      | none =>
          rw [Channel.receive_eq_none.mp hr] at hfly
          cases hfly
      | some p =>
          obtain ⟨line, ch⟩ := p
          rw [hr] at hs
          obtain ⟨s, hh, hs⟩ := Except.bind_eq_ok.mp hs
          obtain rfl := Except.ok.inj hs
          exact .chatCall hb hpc hl hr hh
  | replicate t actor =>
      obtain rfl := Except.ok.inj hs
      exact .replicate ha
  | link t e =>
      simp only [Network.admits, Bool.and_eq_true, Option.any_eq_true] at ha
      obtain ⟨hpc, l, hl, ha⟩ := ha
      simp only [Network.step, hl] at hs
      obtain ⟨l', hl', hs⟩ := Except.bind_eq_ok.mp hs
      obtain rfl := Except.ok.inj hs
      exact .link hpc hl ha hl'

/-! ## The server -/

/-- What a step of the network is to the server. -/
inductive ServerMove (acc : DeadAccess) (n : Network) (e : NetEvent) (n' : Network) : Prop
  | handled {ev : Event} (hev : n.serverEvent e = some ev) (ha : n.server.admits ev = true)
      (hphase : n.begun = true ∨ ev.isArrival = true) (hs : handle acc n.server ev = .ok n'.server)
      (hb : n'.begun = n.begun)
  | began (he : e = .beginPlay) (hwait : n.begun = false) (hs : beginPlay n.server = .ok n'.server)
      (hb : n'.begun = true)
  | quiet (hev : n.serverEvent e = none) (hs : n'.server = n.server) (hb : n'.begun = n.begun)

/-- A line that arrives is the oldest under way. -/
theorem serverEvent_chatCall {l : Link} {line : FString} {ch : Channel FString}
    (hl : n.links[pc]? = some l) (hr : l.toServer.receive = some (line, ch)) :
    n.serverEvent (.chatCall pc) = some (.chat pc line) := by
  obtain ⟨hfly, -⟩ := Channel.receive_eq_some.mp hr
  simp [Network.serverEvent, hl, hfly]

theorem NetMove.serverMove (hm : NetMove acc classes n e n') : ServerMove acc n e n' := by
  cases hm with
  | beginPlay hwait hs => exact .began rfl hwait hs rfl
  | login hs => exact .handled rfl rfl (Or.inr rfl) hs rfl
  | logout hpc hs => exact .handled rfl hpc (Or.inr rfl) hs rfl
  | tick hb hs => exact .handled rfl rfl (Or.inl hb) hs rfl
  | chatCall hb hpc hl hr hs => exact .handled (serverEvent_chatCall hl hr) hpc (Or.inl hb) hs rfl
  | replicate => exact .quiet rfl rfl rfl
  | link => exact .quiet rfl rfl rfl

theorem serverMove_of_step (ha : n.admits e = true) (hs : n.step acc classes e = .ok n') :
    ServerMove acc n e n' := (NetMove.of_step ha hs).serverMove

/-- The server has got where it is by itself: in the lobby, or in the game. -/
def Network.Phase (acc : DeadAccess) (n : Network) : Prop :=
  if n.begun then (game acc everyEvent).Reachable n.server
  else (lobby acc everyEvent).Reachable n.server

theorem Network.Phase.game (h : n.Phase acc) (hb : n.begun = true) :
    (game acc everyEvent).Reachable n.server := by
  unfold Network.Phase at h
  rwa [if_pos hb] at h

theorem Network.Phase.lobby (h : n.Phase acc) (hb : n.begun = false) :
    (lobby acc everyEvent).Reachable n.server := by
  unfold Network.Phase at h
  rwa [if_neg (by rw [hb]; exact Bool.false_ne_true)] at h

/-- **The step lemma.** -/
theorem ServerMove.phase (h : n.Phase acc) (hm : ServerMove acc n e n') : n'.Phase acc := by
  cases hm with
  | handled _ ha hphase hs hb =>
      unfold Network.Phase
      cases hn : n.begun with
      | true =>
          rw [hb, hn, if_pos rfl]
          exact .step (h.game hn) ⟨trivial, ha⟩ hs
      | false =>
          have harr := hphase.resolve_left (by rw [hn]; exact Bool.false_ne_true)
          rw [hb, hn, if_neg Bool.false_ne_true]
          exact .step (h.lobby hn) ⟨trivial, ha, harr⟩ hs
  | began _ hwait hs hb =>
      unfold Network.Phase
      rw [hb, if_pos rfl]
      exact .init ⟨_, h.lobby hwait, hs⟩
  | quiet _ hs hb =>
      unfold Network.Phase
      rw [hs, hb]
      exact h

theorem phase_of_reachable (h : (network acc classes).Reachable n) : n.Phase acc := by
  refine h.invariant ?_ ?_
  · rintro n ⟨random, rfl⟩
    exact .init ⟨random, rfl⟩
  · intro n e n' _ hI ha hs
    exact (serverMove_of_step ha hs).phase hI

/-- What a strict lobby reaches, a lenient one does, too. -/
theorem lobby_yieldsNull {kinds : Event → Prop} {s : World} (h : (lobby acc kinds).Reachable s) :
    (lobby .yieldsNull kinds).Reachable s := by
  cases acc with
  | yieldsNull => exact h
  | faults =>
      exact Reachable.of_refines (M := lobby .faults kinds) (N := lobby .yieldsNull kinds)
        (fun _ hi => hi) (fun _ _ ha => ha) handle_refines h

/-- An event that reaches the server is a move, in the lobby as in the game. -/
theorem Network.Phase.move (h : n.Phase acc) {ev : Event} {s' : World}
    (ha : n.server.admits ev = true) (hphase : n.begun = true ∨ ev.isArrival = true)
    (hs : handle acc n.server ev = .ok s') : Move n.server ev s' := by
  cases hb : n.begun with
  | true =>
      exact Move.of_handle (wellFormed_of_reachable (reachable_yieldsNull (h.game hb))) ha
        (handle_yieldsNull hs)
  | false =>
      have harr := hphase.resolve_left (by rw [hb]; exact Bool.false_ne_true)
      have hallowed : (NumberBaseball.lobby .yieldsNull everyEvent).allowed n.server ev := ⟨trivial, ha, harr⟩
      exact Move.of_lobby hallowed (handle_yieldsNull hs)

theorem Network.Phase.told (h : n.Phase acc) : n.server.Told := by
  cases hb : n.begun with
  | true => exact told_of_reachable (reachable_yieldsNull (h.game hb))
  | false => exact told_of_lobby (lobby_yieldsNull (h.lobby hb))

theorem Network.Phase.seated (h : n.Phase acc) : Seated n.server.allPlayerControllers := by
  cases hb : n.begun with
  | true => exact (wellFormed_of_reachable (reachable_yieldsNull (h.game hb))).seated
  | false => exact (lobby_waiting (lobby_yieldsNull (h.lobby hb))).seated

theorem Network.Phase.clock (h : n.Phase acc) :
    0 ≤ n.server.remainingTime ∧ n.server.remainingTime ≤ turnTime := by
  cases hb : n.begun with
  | true => exact (wellFormed_of_reachable (reachable_yieldsNull (h.game hb))).clock
  | false =>
      rw [(lobby_waiting (lobby_yieldsNull (h.lobby hb))).clock]
      decide

/-- **The server in the network is the server of the game.** What reaches the server in a run of the network
    that starts after `BeginPlay` is, event by event, a run of the game between the two states of the
    server; whatever the clients do and however their lines are delayed. And the first of them has itself
    been reached by the game. -/
theorem network_refines_game (h : (network acc classes).Reachable n) (hb : n.begun = true)
    {es : List NetEvent} (hrun : (network acc classes).Run n es n') :
    (game acc everyEvent).Reachable n.server ∧
    (game acc everyEvent).Run n.server
      ((network acc classes).trace Network.serverEvent n es) n'.server := by
  refine ⟨(phase_of_reachable h).game hb, ?_⟩
  refine hrun.simulates (I := fun n => n.begun = true) ?_ ?_ ?_ hb
  · intro n e n' hb ha hs
    cases serverMove_of_step ha hs with
    | handled _ _ _ _ hb' => rw [hb', hb]
    | began _ hwait =>
        rw [hb] at hwait
        cases hwait
    | quiet _ _ hb' => rw [hb', hb]
  · intro n e n' hb ha hs hnone
    cases serverMove_of_step ha hs with
    | handled hev =>
        rw [hnone] at hev
        cases hev
    | began _ hwait =>
        rw [hb] at hwait
        cases hwait
    | quiet _ hs => exact hs
  · intro n e n' ev hb ha hs hev
    cases serverMove_of_step ha hs with
    | handled hev' ha' _ hs' =>
        rw [hev, Option.some.injEq] at hev'
        subst hev'
        exact ⟨⟨trivial, ha'⟩, hs'⟩
    | began _ hwait =>
        rw [hb] at hwait
        cases hwait
    | quiet hnone =>
        rw [hev] at hnone
        cases hnone

/-- A player joins, the clock is replicated, and a tick comes. -/
theorem network_refines_game_tick : ∃ n,
    (network .faults plainClasses).Run emptyNetwork
      [.login true true, .replicate 0 .gameState, .tick] n ∧
    (game .faults everyEvent).Run emptyServer [.login true, .tick] n.server := by
  obtain ⟨n, hrun, -⟩ := Run.exists_view (M := network .faults plainClasses) (s := emptyNetwork)
    [.login true true, .replicate 0 .gameState, .tick] (fun _ => ()) (b := ()) (by decide +kernel)
  have htrace : (network .faults plainClasses).trace Network.serverEvent emptyNetwork
      [.login true true, .replicate 0 .gameState, .tick] = [.login true, .tick] := by decide +kernel
  have hgame := (network_refines_game emptyNetwork_reachable rfl hrun).2
  rw [htrace] at hgame
  exact ⟨n, hrun, hgame⟩

/-! ## One connection -/

/-- What happens on the machine of `pc` in a step. -/
def NetEvent.at (pc : Nat) : NetEvent → Option LinkEvent
  | .link t e => if t = pc then some e else none
  | _         => none

/-- What a step of the network does to the connection of `pc`, when the server goes from `s` to `s'` and `o` is
    what happens on the machine of `pc`. -/
inductive LinkMove (classes : WidgetClasses) (s s' : World) (pc : Nat) :
    Option LinkEvent → Link → Link → Prop
  /-- Nothing. -/
  | idle {l : Link} (h : s'.sent = s.sent) : LinkMove classes s s' pc none l l
  /-- The server makes calls. -/
  | called {l : Link} {calls : List Rpc} (h : s'.sent = s.sent ++ calls) :
      LinkMove classes s s' pc none l (l.call pc calls)
  /-- It makes them in the handler of a line that has arrived over this connection. -/
  | handled {l : Link} {line : FString} {ch : Channel FString} {calls : List Rpc}
      (hr : l.toServer.receive = some (line, ch)) (h : s'.sent = s.sent ++ calls) :
      LinkMove classes s s' pc none l (Link.call pc calls { l with toServer := ch })
  /-- The properties of an actor are sent. -/
  | replicated {l : Link} (actor : Replicated) (hs : s' = s) :
      LinkMove classes s s' pc none l { l with updates := l.updates ++ (s.snapshot pc actor).toList }
  /-- Something happens at the other end. -/
  | own {l l' : Link} (e : LinkEvent) (hs : s' = s) (ha : l.admits e = true)
      (he : l.step classes e = .ok l') : LinkMove classes s s' pc (some e) l l'

/-- `P` holds of every open connection. -/
def Network.EachLink (n : Network) (P : Nat → Link → Prop) : Prop :=
  ∀ pc l, n.links[pc]? = some l → n.server.isConnected pc = true → P pc l

theorem getElem?_setLink_self {l l' : Link} (hl : n.links[pc]? = some l) :
    (n.setLink pc l').links[pc]? = some l' :=
  List.getElem?_set_self (List.getElem?_eq_some_iff.mp hl).1

theorem getElem?_setLink_ne {other : Nat} {l : Link} (h : other ≠ pc) :
    (n.setLink other l).links[pc]? = n.links[pc]? := List.getElem?_set_ne h

theorem getElem?_serve {s : World} {calls : List Rpc} (hpc : s.isConnected pc = true)
    (hsent : s.sent = n.server.sent ++ calls) :
    (n.serve s).links[pc]? = n.links[pc]?.map (·.call pc calls) := by
  show (n.links.mapIdx _)[pc]? = _
  rw [List.getElem?_mapIdx]
  simp only [hpc, if_true, hsent, List.drop_left]

theorem length_serve (n : Network) (s : World) : (n.serve s).links.length = n.links.length :=
  List.length_mapIdx

/-- A move that is no login keeps the number of connections, and the length of the roster. -/
theorem links_length_serve {s : World} {ev : Event} (hm : Move n.server ev s) (he : ev.isLogin = false)
    (h : n.links.length = n.server.allPlayerControllers.length) :
    (n.serve s).links.length = s.allPlayerControllers.length := by
  rw [length_serve, hm.length_roster, he, h]
  rfl

/-- Everybody in the roster has a connection, which outlives the player. -/
theorem links_length (h : (network acc classes).Reachable n) :
    n.links.length = n.server.allPlayerControllers.length := by
  refine h.invariant (I := fun n => n.links.length = n.server.allPlayerControllers.length) ?_ ?_
  · rintro n ⟨random, rfl⟩
    rfl
  · intro n e n' hr hI hadm hstep
    have hphase := phase_of_reachable hr
    cases NetMove.of_step hadm hstep with
    | beginPlay _ hs =>
        rw [(beginPlay_eq hs).1]
        exact hI
    | @login hasPlayerState reachesNewcomer s hs =>
        have hm : Move n.server (.login hasPlayerState) s := hphase.move rfl (Or.inr rfl) hs
        show ((n.serve s).links ++ [_]).length = s.allPlayerControllers.length
        rw [hm.length_roster, List.length_append, length_serve, hI]
        rfl
    | @logout t s hpc hs =>
        have hm : Move n.server (.logout t) s := hphase.move hpc (Or.inr rfl) hs
        exact links_length_serve hm rfl hI
    | @tick s hb hs =>
        have hm : Move n.server .tick s := hphase.move rfl (Or.inl hb) hs
        exact links_length_serve hm rfl hI
    | @chatCall t l line ch s hb hpc hl hr hs =>
        have hm : Move n.server (.chat t line) s := hphase.move hpc (Or.inl hb) hs
        exact links_length_serve (n := n.setLink t _) hm rfl ((List.length_set ..).trans hI)
    | replicate => exact (List.length_modify ..).trans hI
    | link => exact (List.length_set ..).trans hI

/-- A connection through an event of the server that is not its own. -/
theorem linkMove_serve {ev : Event} {s : World} {l' : Link} (hm : Move n.server ev s)
    (he : ev.isLogin = false) (hl : (n.serve s).links[pc]? = some l') (hpc : s.isConnected pc = true) :
    ∃ l, n.links[pc]? = some l ∧ n.server.isConnected pc = true ∧
      LinkMove classes n.server s pc none l l' := by
  obtain ⟨first, msgs, hsends⟩ := hm.sends
  rw [getElem?_serve hpc hsends.sent] at hl
  obtain ⟨l, hget, rfl⟩ := Option.map_eq_some_iff.mp hl
  rcases hm.isConnected_cases hpc with hpc' | ⟨hlogin, -⟩
  · exact ⟨l, hget, hpc', .called hsends.sent⟩
  · rw [he] at hlogin
    cases hlogin

/-- A login calls everybody who is there, and opens a connection. -/
theorem linkMove_login {hasPlayerState reachesNewcomer : Bool} {s : World} {l' : Link}
    (hlen : n.links.length = n.server.allPlayerControllers.length)
    (hm : Move n.server (.login hasPlayerState) s)
    (hl' : ((n.serve s).links ++ [n.newcomer s reachesNewcomer])[pc]? = some l')
    (hpc : s.isConnected pc = true) :
    (∃ l, n.links[pc]? = some l ∧ n.server.isConnected pc = true ∧
      LinkMove classes n.server s pc none l l') ∨
    (Move n.server (.login true) s ∧ pc = n.server.allPlayerControllers.length ∧
      ∃ reachesNewcomer, l' = n.newcomer s reachesNewcomer) := by
  obtain ⟨first, msgs, hsends⟩ := hm.sends
  cases hm with
  | login =>
      rcases Move.isConnected_cases .login hpc with hpc' | ⟨-, rfl⟩
      · have hlt := isConnected_lt hpc'
        rw [List.getElem?_append_left (by rw [length_serve]; omega), getElem?_serve hpc hsends.sent] at hl'
        obtain ⟨l, hl, rfl⟩ := Option.map_eq_some_iff.mp hl'
        exact Or.inl ⟨l, hl, hpc', .called hsends.sent⟩
      · rw [← hlen, ← length_serve n _, List.getElem?_concat_length] at hl'
        exact Or.inr ⟨.login, rfl, reachesNewcomer, (Option.some.inj hl').symm⟩

/-- **What a step does to a connection**: an open one was open before and has made a move, or it is the
    newcomer's. -/
theorem linkMove_of_step (hr : (network acc classes).Reachable n) (hadm : n.admits e = true)
    (hstep : n.step acc classes e = .ok n') {l' : Link} (hl' : n'.links[pc]? = some l')
    (hpc : n'.server.isConnected pc = true) :
    (∃ l, n.links[pc]? = some l ∧ n.server.isConnected pc = true ∧
      LinkMove classes n.server n'.server pc (e.at pc) l l') ∨
    (Move n.server (.login true) n'.server ∧ pc = n.server.allPlayerControllers.length ∧
      ∃ reachesNewcomer, l' = n.newcomer n'.server reachesNewcomer) := by
  have hphase := phase_of_reachable hr
  cases NetMove.of_step hadm hstep with
  | beginPlay _ hs =>
      obtain ⟨hroster, hsent⟩ := beginPlay_eq hs
      have hpc' : n.server.isConnected pc = true :=
        (isConnected_congr (by rw [hroster]) pc).symm.trans hpc
      exact Or.inl ⟨l', hl', hpc', .idle hsent⟩
  | @login hasPlayerState reachesNewcomer s hs =>
      have hm : Move n.server (.login hasPlayerState) s := hphase.move rfl (Or.inr rfl) hs
      exact linkMove_login (links_length hr) hm hl' hpc
  | @logout t s hconn hs =>
      have hm : Move n.server (.logout t) s := hphase.move hconn (Or.inr rfl) hs
      exact Or.inl (linkMove_serve hm rfl hl' hpc)
  | @tick s hb hs =>
      have hm : Move n.server .tick s := hphase.move rfl (Or.inl hb) hs
      exact Or.inl (linkMove_serve hm rfl hl' hpc)
  | @chatCall t l line ch s hb hpc' hl hr hs =>
      have hm : Move n.server (.chat t line) s := hphase.move hpc' (Or.inl hb) hs
      have hpc : s.isConnected pc = true := hpc
      by_cases ht : t = pc
      · -- the line came over this connection
        subst ht
        obtain ⟨first, msgs, hsends⟩ := hm.sends
        rw [getElem?_serve (n := n.setLink t _) hpc hsends.sent, getElem?_setLink_self hl] at hl'
        obtain rfl := Option.some.inj hl'
        exact Or.inl ⟨l, hl, hpc', .handled hr hsends.sent⟩
      · obtain ⟨m, hm', hconn, hmove⟩ :=
          linkMove_serve (n := n.setLink t { l with toServer := ch }) hm rfl hl' hpc
        rw [getElem?_setLink_ne ht] at hm'
        exact Or.inl ⟨m, hm', hconn, hmove⟩
  | @replicate t actor =>
      change (n.links.modify t _)[pc]? = some l' at hl'
      rw [List.getElem?_modify] at hl'
      obtain ⟨l, hl, rfl⟩ := Option.map_eq_some_iff.mp hl'
      refine Or.inl ⟨l, hl, hpc, ?_⟩
      by_cases ht : t = pc
      · subst ht
        rw [if_pos rfl]
        exact .replicated actor rfl
      · rw [if_neg ht]
        exact .idle rfl
  | @link t e m m' hconn hm ha hs =>
      by_cases ht : t = pc
      · subst ht
        rw [getElem?_setLink_self hm] at hl'
        obtain rfl := Option.some.inj hl'
        rw [show (NetEvent.link t e).at t = some e from if_pos rfl]
        exact Or.inl ⟨m, hm, hpc, .own e rfl ha hs⟩
      · rw [getElem?_setLink_ne ht] at hl'
        rw [show (NetEvent.link t e).at pc = none from if_neg ht]
        exact Or.inl ⟨l', hl', hpc, .idle rfl⟩

/-- **The rule for one connection.** What holds of the connection of a player who has just joined, and
    survives whatever can happen to a connection, holds of every open connection of every network reached. -/
theorem link_invariant {P : World → Nat → Link → Prop}
    (hnew : ∀ (n : Network) s reachesNewcomer, (network acc classes).Reachable n →
      Move n.server (.login true) s →
      P s n.server.allPlayerControllers.length (n.newcomer s reachesNewcomer))
    (hmove : ∀ (n n' : Network) pc o l l', (network acc classes).Reachable n → n.links[pc]? = some l →
      n.server.isConnected pc = true → LinkMove classes n.server n'.server pc o l l' →
      P n.server pc l → P n'.server pc l')
    (h : (network acc classes).Reachable n) : n.EachLink (P n.server) := by
  refine h.invariant (I := fun n => n.EachLink (P n.server)) ?_ ?_
  · rintro n ⟨random, rfl⟩ pc l hl
    cases hl
  · intro n e n' hr hI ha hs pc l' hl' hpc
    rcases linkMove_of_step hr ha hs hl' hpc with ⟨l, hl, hconn, hlm⟩ | ⟨hm, rfl, b, rfl⟩
    · exact hmove n n' pc _ l l' hr hl hconn hlm (hI pc l hl hconn)
    · exact hnew n _ b hr hm

/-! ## What has happened on one machine -/

/-- What `obs` sees of what happens on the machine of `pc` in a step. -/
def linkSeen {β : Type} (pc : Nat) (obs : Link → LinkEvent → Option β) (n : Network) (e : NetEvent) :
    Option β :=
  (e.at pc).bind fun le => n.links[pc]?.bind fun l => obs l le

theorem linkSeen_some {β : Type} {obs : Link → LinkEvent → Option β} {l : Link}
    (hl : n.links[pc]? = some l) : linkSeen pc obs n e = (e.at pc).bind (obs l) := by
  unfold linkSeen
  rw [hl]
  rfl

/-- Nobody has a machine before joining. -/
theorem linkSeen_none {β : Type} {obs : Link → LinkEvent → Option β} (hlen : n.links.length ≤ pc) :
    linkSeen pc obs n e = none := by
  unfold linkSeen
  rw [List.getElem?_eq_none hlen]
  cases e.at pc <;> rfl

/-- Connections are not taken away. -/
theorem NetMove.length_le (hm : NetMove acc classes n e n') : n.links.length ≤ n'.links.length := by
  cases hm with
  | beginPlay => exact Nat.le_refl _
  | @login hasPlayerState b s hs =>
      show _ ≤ ((n.serve s).links ++ [_]).length
      rw [List.length_append, length_serve]
      exact Nat.le_add_right ..
  | logout => exact (length_serve n _).ge
  | tick => exact (length_serve n _).ge
  | @chatCall t l line ch s =>
      rw [length_serve]
      exact (List.length_set ..).ge
  | replicate => exact (List.length_modify ..).ge
  | link => exact (List.length_set ..).ge

/-- **The rule for one connection and its past.** What holds of the connection of `pc` when the player has just
    joined, with nothing seen, and survives whatever can happen to a connection while what `obs` sees of it
    is noted down, holds after every run that starts before the player joins. -/
theorem link_trace_invariant {β : Type} {obs : Link → LinkEvent → Option β}
    {P : World → Link → List β → Prop}
    (hnew : ∀ (n : Network) s reachesNewcomer, (network acc classes).Reachable n →
      Move n.server (.login true) s → pc = n.server.allPlayerControllers.length →
      P s (n.newcomer s reachesNewcomer) [])
    (hmove : ∀ (n n' : Network) o l l' seen, (network acc classes).Reachable n →
      n.links[pc]? = some l → n.server.isConnected pc = true →
      LinkMove classes n.server n'.server pc o l l' → P n.server l seen →
      P n'.server l' (seen ++ (o.bind (obs l)).toList))
    {n₀ : Network} (h : (network acc classes).Reachable n₀) (hjoins : n₀.links.length ≤ pc)
    {es : List NetEvent} (hrun : (network acc classes).Run n₀ es n) {l : Link}
    (hl : n.links[pc]? = some l) (hpc : n.server.isConnected pc = true) :
    P n.server l ((network acc classes).trace (linkSeen pc obs) n₀ es) := by
  let I (n : Network) (seen : List β) : Prop := (network acc classes).Reachable n ∧
    (n.links.length ≤ pc → seen = []) ∧
    ∀ l, n.links[pc]? = some l → n.server.isConnected pc = true → P n.server l seen
  have hstart : I n₀ [] := by
    refine ⟨h, fun _ => rfl, fun l hl => ?_⟩
    rw [List.getElem?_eq_none hjoins] at hl
    cases hl
  have hinv : I n ([] ++ (network acc classes).trace (linkSeen pc obs) n₀ es) :=
    hrun.trace_invariant (I := I) ?_ hstart
  · exact hinv.2.2 l hl hpc
  · rintro n e n' seen ⟨hr, hnone, hI⟩ ha hs
    refine ⟨hr.step ha hs, fun hlen => ?_, fun l' hl' hpc => ?_⟩
    · have hlen := (NetMove.of_step ha hs).length_le.trans hlen
      rw [hnone hlen, linkSeen_none hlen]
      rfl
    · rcases linkMove_of_step hr ha hs hl' hpc with ⟨l, hl, hconn, hlm⟩ | ⟨hm, hlen, b, rfl⟩
      · rw [linkSeen_some hl]
        exact hmove n n' _ l l' seen hr hl hconn hlm (hI l hl hconn)
      · have hle : n.links.length ≤ pc := by rw [links_length hr, hlen]
        rw [hnone hle, linkSeen_none hle]
        exact hnew n _ b hr hm hlen

end NumberBaseball
