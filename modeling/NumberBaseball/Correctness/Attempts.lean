import NumberBaseball.Correctness.Rotation

/-!
# `Correctness.Attempts` — no attempt beyond the limit

Nothing tests the limit where an attempt is charged. The bound rests on the order of turns and on the
draw test: in a round that everybody plays from its beginning, all counts reach the limit in the same
lap. A player who logs in later is behind, and the draw waits for that player while the others go on.

The invariant is the budget of the round-robin table, `Table.Due`. It survives a login as long as the
first lap of the round has still to pass the end of the roster (`FirstLap`), so the bound holds in every
run whose logins all come so early.
-/

namespace NumberBaseball

open World Machine RoundRobin

variable {s s' : World} {e : Event}

/-- A login comes while everybody from the turn to the end of the roster has used nothing. -/
def FirstLap (s : World) (e : Event) : Prop :=
  e.isLogin = true → ∀ c ∈ s.allPlayerControllers.drop s.currentTurnIndex.toNat,
    ∀ ps ∈ c.state?, ps.currentGuessCount = 0

instance : Decidable (FirstLap s e) := inferInstanceAs (Decidable (_ → _))

/-! ## Everybody is connected -/

/-- Everybody in the roster is connected. -/
def AllConnected (cs : List HwPlayerController) : Prop := ∀ c ∈ cs, c.isValid = true

theorem AllConnected.joined (h : AllConnected s.allPlayerControllers) :
    AllConnected s.joined.allPlayerControllers := by
  intro c hc
  rcases List.mem_append.mp hc with hc | hc
  · exact h c hc
  · rw [List.mem_singleton.mp hc]

theorem AllConnected.congr {cs ds : List HwPlayerController} (h : AllConnected cs)
    (hv : ds.map (·.isValid) = cs.map (·.isValid)) : AllConnected ds := by
  intro c hc
  have hmem : c.isValid ∈ cs.map (·.isValid) := by
    rw [← hv]
    exact List.mem_map_of_mem hc
  obtain ⟨d, hd, heq⟩ := List.mem_map.mp hmem
  rw [← heq]
  exact h d hd

theorem AllConnected.move (h : AllConnected s.allPlayerControllers) (he : noLogout e)
    (hm : Move s e s') : AllConnected s'.allPlayerControllers := by
  cases harr : e.isArrival with
  | false => exact h.congr (hm.map_isValid harr)
  | true =>
      cases hm with
      | login => exact h.joined
      | logout => cases he
      | _ => cases harr

/-- Where nobody disconnects, everybody is connected when the game begins. -/
theorem allConnected_init (h : (game .yieldsNull noLogout).init s) :
    AllConnected s.allPlayerControllers := by
  obtain ⟨s₀, hr, hb⟩ := h
  have hlobby : AllConnected s₀.allPlayerControllers := by
    refine Reachable.invariant (M := lobby .yieldsNull noLogout)
      (I := fun s => AllConnected s.allPlayerControllers) ?_ ?_ hr
    · rintro s ⟨random, rfl⟩ c hc
      cases hc
    · rintro s e s' - hall ⟨hkind, -, harr⟩ hs
      cases e with
      | login hasPlayerState =>
          cases hasPlayerState with
          | false =>
              rw [show (lobby .yieldsNull noLogout).step s (.login false) = .error .invalidPointer
                from login_fault] at hs
              cases hs
          | true =>
              rw [show (lobby .yieldsNull noLogout).step s (.login true) = .ok s.joined
                from login_ok, Except.ok.injEq] at hs
              subst hs
              exact hall.joined
      | logout _ => cases hkind
      | chat _ _ => cases harr
      | tick => cases harr
  unfold beginPlay at hb
  rw [Except.bind_eq_ok] at hb
  obtain ⟨⟨secret, random⟩, -, hb⟩ := hb
  obtain rfl := Except.ok.inj hb
  exact hlobby

/-! ## The budget of a round -/

/-- As soon as there are players, the round has charges left, and after exactly so many everybody will
    have used three attempts. -/
structure WithinBudget (s : World) : Prop where
  connected : AllConnected s.allPlayerControllers
  budget    : s.allPlayerControllers ≠ [] →
    ∃ (n : Nat) (T : Table n) (K : Nat), Seats 3 s T ∧ T.Due 3 (K + 1)

/-- A roster of connected players is a table. -/
theorem exists_seats (hwf : s.WellFormed) (hall : AllConnected s.allPlayerControllers)
    (hne : s.allPlayerControllers ≠ []) :
    ∃ T : Table s.allPlayerControllers.length, Seats 3 s T := by
  obtain ⟨t, hturn⟩ := hwf.turnHolder hne
  obtain ⟨hcur, hlt⟩ := turnHolder_eq_some.mp hturn
  refine ⟨⟨⟨t, hlt⟩, fun i => ((s.stateAt i).map (·.currentGuessCount)).getD 0⟩, rfl, hcur, ?_⟩
  intro i
  have hget : s.allPlayerControllers[(i : Nat)]? = some s.allPlayerControllers[(i : Nat)] :=
    List.getElem?_eq_getElem i.isLt
  obtain ⟨ps, hps, hseat⟩ := hwf.seated i _ hget (hall _ (List.mem_of_getElem? hget))
  have hst : s.stateAt i = some ps := stateAt_eq_some.mpr ⟨_, hget, hps⟩
  exact ⟨ps, hst, by simp [hst], hseat.quota⟩

/-- A round that has just begun is within its budget, whoever holds the turn. -/
theorem WithinBudget.fresh (hwf : s.WellFormed) (hall : AllConnected s.allPlayerControllers)
    (hunused : Unused s.allPlayerControllers) : WithinBudget s := by
  refine ⟨hall, fun hne => ?_⟩
  obtain ⟨T, hT⟩ := exists_seats hwf hall hne
  have hzero : ∀ i, T.used i = 0 := by
    intro i
    obtain ⟨ps, hps, hcount, -⟩ := hT.used i
    obtain ⟨c, hc, hst⟩ := stateAt_eq_some.mp hps
    rw [← hcount]
    exact hunused c (List.mem_of_getElem? hc) ps hst
  have hpos : 0 < s.allPlayerControllers.length := List.length_pos_iff.mpr hne
  refine ⟨_, T, s.allPlayerControllers.length * 3 - 1, hT, ?_⟩
  rw [Nat.sub_add_cancel (by omega)]
  exact Table.due_fresh hzero 3

/-- A newcomer takes a seat at the end of the table. -/
theorem Seats.joined {n : Nat} {T : Table n} (h : Seats 3 s T) : Seats 3 s.joined T.join where
  length := by
    show (s.allPlayerControllers ++ [_]).length = n + 1
    rw [List.length_append, h.length]
    rfl
  turn := h.turn
  used i := by
    refine Fin.lastCases ?_ (fun i => ?_) i
    · obtain ⟨ps, hps, hcount, hmax⟩ := stateAt_joined_last (s := s)
      rw [h.length] at hps
      exact ⟨ps, hps, by simp [hcount, Table.join], hmax⟩
    · obtain ⟨ps, hps, hcount, hmax⟩ := h.used i
      refine ⟨ps, ?_, by simp [hcount, Table.join], hmax⟩
      rw [← hps]
      exact stateAt_joined_of_lt (by rw [h.length]; exact i.isLt)

/-- In the first lap nobody from the turn on has used anything. -/
theorem Seats.unused_of_firstLap {n : Nat} {T : Table n} (h : Seats 3 s T) (hP : FirstLap s e)
    (he : e.isLogin = true) (i : Fin n) (hi : T.turn ≤ i) : T.used i = 0 := by
  obtain ⟨ps, hps, hcount, -⟩ := h.used i
  obtain ⟨c, hc, hst⟩ := stateAt_eq_some.mp hps
  rw [← hcount]
  refine hP he c ?_ ps hst
  have hle : (T.turn : Nat) ≤ i := hi
  rw [h.turn, Int.toNat_natCast]
  refine List.mem_of_getElem? (i := i - T.turn) ?_
  rwa [List.getElem?_drop, Nat.add_sub_cancel' hle]

/-- **The step lemma.** -/
theorem WithinBudget.move (hwf : s.WellFormed) (h : WithinBudget s) (he : noLogout e)
    (hP : FirstLap s e) (hm : Move s e s') : WithinBudget s' := by
  have hwf' := hwf.move hm
  have hall := h.connected.move he hm
  by_cases hend : RoundEnds s s'
  · exact .fresh hwf' hall (hm.unused_of_roundEnds hwf hend)
  cases harr : e.isArrival with
  | true =>
      cases hm with
      | login =>
          by_cases hnil : s.allPlayerControllers = []
          · -- the first player opens the table
            refine .fresh hwf' hall fun c hc ps hps => ?_
            change c ∈ s.allPlayerControllers ++ [_] at hc
            rw [hnil, List.nil_append, List.mem_singleton] at hc
            subst hc
            obtain rfl := Option.some.inj hps
            rfl
          · obtain ⟨n, T, K, hT, hdue⟩ := h.budget hnil
            refine ⟨hall, fun _ => ⟨n + 1, T.join, K + 3, hT.joined, ?_⟩⟩
            rw [show K + 3 + 1 = K + 1 + 3 by omega]
            exact hdue.join (hT.unused_of_firstLap hP rfl)
      | logout => cases he
      | _ => cases harr
  | false =>
      refine ⟨hall, fun hne => ?_⟩
      have hne' : s.allPlayerControllers ≠ [] := by
        intro hnil
        have hlen := hm.length_eq harr
        rw [hnil] at hlen
        exact hne (List.length_eq_zero_iff.mp hlen)
      obtain ⟨n, T, K, hT, hdue⟩ := h.budget hne'
      cases hc : s.charges e with
      | false => exact ⟨n, T, K, hT.idle hwf harr hc hm, hdue⟩
      | true =>
          have hw := hm.wins_eq_false hwf hend
          obtain ⟨hends, hnext⟩ := hT.charge hwf hc hw hm
          have hspent := hdue.serve.spent_iff
          cases K with
          -- the last service due would have ended the round
          | zero => exact absurd (hends.mpr (hspent.mpr rfl)) hend
          | succ K => exact ⟨n, T.serve, K, hnext hend, hdue.serve⟩

/-! ## The bound -/

/-- **No attempt beyond the limit.** In every run, of logins, chat lines and ticks, whose logins all come
    while everybody from the turn to the end of the roster has used nothing, no player's count exceeds
    the limit. -/
theorem attempts_within_limit
    (h : ((game .yieldsNull noLogout).restrict FirstLap).Reachable s) :
    ∀ i ps, s.stateAt i = some ps → ps.currentGuessCount ≤ ps.maxGuessCount := by
  have hI : WithinBudget s := by
    refine restrict_invariant (P := FirstLap) ?_ (fun _ _ _ hwf h he hP hm => h.move hwf he hP hm) h
    intro s hi
    have hf := game_init_fresh hi
    exact .fresh hf.wellFormed (allConnected_init hi) hf.unused
  intro i ps hps
  obtain ⟨c, hc, -⟩ := stateAt_eq_some.mp hps
  obtain ⟨n, T, K, hT, hdue⟩ := hI.budget (List.ne_nil_of_mem (List.mem_of_getElem? hc))
  obtain ⟨hi, hcount, hmax⟩ := hT.stateAt hps
  rw [hcount, hmax]
  exact hdue.used_le ⟨i, hi⟩

/-- Two players; the third logs in right after the first guess of the round. -/
theorem attempts_within_limit_third : ∃ s,
    ((game .yieldsNull noLogout).restrict FirstLap).Run emptyServer [.login true, .login true,
      .chat 0 (text "456"), .login true, .chat 1 (text "456"), .chat 2 (text "456"),
      .chat 0 (text "456")] s ∧
    ∀ i ps, s.stateAt i = some ps → ps.currentGuessCount ≤ ps.maxGuessCount := by
  obtain ⟨s, hrun, -⟩ := Run.exists_view (M := (game .yieldsNull noLogout).restrict FirstLap)
    (s := emptyServer) [.login true, .login true, .chat 0 (text "456"), .login true,
      .chat 1 (text "456"), .chat 2 (text "456"), .chat 0 (text "456")] (fun _ => ()) (b := ())
    (by decide +kernel)
  have hinit : ((game .yieldsNull noLogout).restrict FirstLap).init emptyServer :=
    @emptyServer_init .yieldsNull noLogout
  exact ⟨s, hrun, attempts_within_limit (.run (.init hinit) hrun)⟩

/-- The second player logs in when the first has used an attempt; three laps later the first has used
    four, and the second two. -/
theorem attempts_within_limit_fails : ∃ s, (game .yieldsNull noLogout).Reachable s ∧
    (game .yieldsNull noLogout).Run emptyServer [.login true, .chat 0 (text "456"), .login true,
      .chat 0 (text "456"), .chat 1 (text "456"), .chat 0 (text "456"), .chat 1 (text "456"),
      .chat 0 (text "456")] s ∧
    ∃ ps, s.stateAt 0 = some ps ∧ ¬ ps.currentGuessCount ≤ ps.maxGuessCount := by
  obtain ⟨s, hrun, hview⟩ := Run.exists_view (M := game .yieldsNull noLogout) (s := emptyServer)
    [.login true, .chat 0 (text "456"), .login true, .chat 0 (text "456"), .chat 1 (text "456"),
      .chat 0 (text "456"), .chat 1 (text "456"), .chat 0 (text "456")]
    (fun s => (s.stateAt 0).map fun ps => (ps.currentGuessCount, ps.maxGuessCount))
    (b := some (4, 3)) (by decide +kernel)
  obtain ⟨ps, hps, hcounts⟩ := Option.map_eq_some_iff.mp hview
  obtain ⟨h4, h3⟩ := Prod.mk.inj hcounts
  exact ⟨s, .run (.init emptyServer_init) hrun, hrun, ps, hps, by rw [h4, h3]; decide⟩

end NumberBaseball
