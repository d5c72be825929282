import Choreo.Proofs.Playback.Pausing
import Choreo.Proofs.Playback.Regions
import Choreo.Proofs.Script.Lengths

/-!
# Stories without interruption

A session that nothing gets in the way of executes its commands one after the other. Its story tells
that each of them, and the end, came when everything before was over, and so when each region was left
behind.
-/

namespace Choreo

/-- No command goes back, and none shortens a wait. -/
structure Program.Plain (program : Program) : Prop where
  noLoop : ∀ c ∈ program.commands, c.directive ≠ .loop
  noPing : ∀ c ∈ program.commands, c.directive ≠ .ping

instance (program : Program) : Decidable program.Plain :=
  decidable_of_iff (∀ c ∈ program.commands, c.directive ≠ .loop ∧ c.directive ≠ .ping)
    ⟨fun h => ⟨fun c hc => (h c hc).1, fun c hc => (h c hc).2⟩,
      fun h c hc => ⟨h.noLoop c hc, h.noPing c hc⟩⟩

/-- The millisecond in which something is over that takes some nanoseconds. -/
def overAt (began nanos : Nat) : Nat := began + (nanos + 999999) / 1000000

/-- Whether a session has left a region, and those before it, behind. -/
def Beat.beyond (program : Program) (r : Nat) (beat : Beat) : Bool :=
  beat.ends || beat.executed?.any fun i => program.commands[i]?.any (r < ·.region)

/-- The millisecond in which a session left a region, and those before it, behind. -/
def leftAt? (program : Program) (r : Nat) (story : List Beat) : Option Nat :=
  (story.reverse.find? (Beat.beyond program r)).map Beat.time

def endedAt? (story : List Beat) : Option Nat := (story.find? Beat.ends).map Beat.time

section Story

variable {settings : Settings} {id : SessionId} {program : Program} {story beats : List Beat}
variable {b i r time : Nat} {ignoreLooping : Bool} {c : Command} {s : Session}

/-! ## The story of an uninterrupted session -/

theorem nextIndex_execute (program : Program) (story : List Beat) (time : Nat)
    (ignoreLooping : Bool) (s : Session) (id : SessionId) (c : Command) (i : Nat)
    (envelopes : List Envelope) :
    nextIndex program (((s.arrivals id c ++ .reached id (.executed i) ::
      envelopes.map Event.sent).map (Beat.note time ignoreLooping)).reverse ++ story) =
        program.following ignoreLooping i := by
  rw [Solo.Ordered.notes_append, Beat.notes_sent, List.append_assoc, Told.nextIndex_sent]
  rfl

theorem leftAt?_append (program : Program) (r : Nat) (beats story : List Beat) :
    leftAt? program r (beats ++ story) =
      (leftAt? program r story).or (leftAt? program r beats) := by
  rw [leftAt?, List.reverse_append, List.find?_append, Option.map_or]
  rfl

theorem exists_of_leftAt? (hleft : leftAt? program r story = some time) :
    ∃ beat ∈ story, beat.beyond program r = true ∧ beat.time = time := by
  obtain ⟨beat, hfind, htime⟩ := Option.map_eq_some_iff.1 hleft
  exact ⟨beat, List.mem_reverse.1 (List.mem_of_find?_eq_some hfind), List.find?_some hfind, htime⟩

theorem not_beyond_of_leftAt? (hleft : leftAt? program r story = none) {beat : Beat}
    (hbeat : beat ∈ story) : beat.beyond program r = false := by
  have hfind := List.find?_eq_none.1 (Option.map_eq_none_iff.1 hleft)
  exact Bool.eq_false_iff.2 (hfind beat (List.mem_reverse.2 hbeat))

theorem region_le_of_not_beyond {beat : Beat} (hbeyond : beat.beyond program r = false)
    (hi : beat.executed? = some i) (hcommand : program.commands[i]? = some c) : c.region ≤ r := by
  unfold Beat.beyond at hbeyond
  rw [hi] at hbeyond
  simpa [hcommand] using (Bool.or_eq_false_iff.1 hbeyond).2

structure Unbroken (program : Program) (settings : Settings) (story : List Beat) : Prop where
  first : begunAt? story = none → nextIndex program story = 0
  account : account program settings story = (begunAt? story).elim {} fun b =>
    { anchor := b, owed := program.heldBefore (nextIndex program story), steady := true }
  reached : ∀ j < nextIndex program story, ∃ beat ∈ story, beat.executed? = some j
  left : ∀ r time, leftAt? program r story = some time →
    (begunAt? story).map (overAt · (program.heldThrough r)) = some time
  ended : ∀ beat ∈ story, beat.ends = true →
    (begunAt? story).map (overAt · program.heldInAll) = some beat.time

theorem exists_of_begunAt? (hbegun : begunAt? story = some b) : ∃ beat ∈ story, beat.time = b := by
  obtain ⟨beat, hbeat, hbegins⟩ := List.exists_of_findSome?_eq_some hbegun
  unfold Beat.begun? at hbegins
  split at hbegins
  · exact ⟨beat, hbeat, Option.some.inj hbegins⟩
  · cases hbegins

theorem endedAt?_eq_none_iff (story : List Beat) :
    endedAt? story = none ↔ ∀ beat ∈ story, beat.ends = false := by
  rw [endedAt?, Option.map_eq_none_iff, List.find?_eq_none]
  exact forall₂_congr fun _ _ => Bool.eq_false_iff.symm

namespace Unbroken

theorem account_eq (h : Unbroken program settings story) (hbegun : begunAt? story = some b) :
    Choreo.account program settings story =
      { anchor := b, owed := program.heldBefore (nextIndex program story), steady := true } := by
  rw [h.account, hbegun]
  rfl

theorem launched {start : Start} (time : Nat) (ignoreLooping : Bool)
    (hfirst : start.first program = 0) :
    Unbroken program settings [⟨time, ignoreLooping, .launched start⟩] where
  first _ := hfirst
  account := rfl
  reached j hj := by
    have hnone : nextIndex program [⟨time, ignoreLooping, .launched start⟩] = 0 := hfirst
    omega
  left _ _ hleft := by cases hleft
  ended beat hbeat hends := by
    cases List.mem_singleton.1 hbeat
    cases hends

/-- As long as a region was not left, the commands up to the next one are not beyond it. -/
theorem region_le (h : Unbroken program settings story) (hleft : leftAt? program r story = none) :
    ∀ j < nextIndex program story, ∀ d, program.commands[j]? = some d → d.region ≤ r := by
  intro j hj d hd
  obtain ⟨beat, hbeat, hexecuted⟩ := h.reached j hj
  exact region_le_of_not_beyond (not_beyond_of_leftAt? hleft hbeat) hexecuted hd

theorem began (h : Unbroken program settings story) (hbegun : begunAt? story = none) (time : Nat)
    (ignoreLooping : Bool) (id : SessionId) :
    Unbroken program settings (Beat.note time ignoreLooping (.reached id .began) :: story) := by
  have hnext : nextIndex program (Beat.note time ignoreLooping (.reached id .began) :: story) = 0 :=
    h.first hbegun
  refine ⟨nofun, ?_, ?_, ?_, ?_⟩
  · have hbefore := h.account
    rw [hbegun] at hbefore
    show (Choreo.account program settings story).restart time = Account.mk time
      (program.heldBefore (nextIndex program _)) true .zero
    rw [hbefore, hnext]
    rfl
  · intro j hj
    omega
  · intro r time' hleft
    have hsame : leftAt? program r (Beat.note time ignoreLooping (.reached id .began) :: story) =
        (leftAt? program r story).or none :=
      leftAt?_append program r [Beat.note time ignoreLooping (.reached id .began)] story
    rw [hsame, Option.or_none] at hleft
    have hbefore := h.left r time' hleft
    rw [hbegun] at hbefore
    cases hbefore
  · intro beat hbeat hends
    rcases List.mem_cons.1 hbeat with rfl | hmem
    · cases hends
    · have hbefore := h.ended beat hmem hends
      rw [hbegun] at hbefore
      cases hbefore

theorem executed?_execute {event : Event} {envelopes : List Envelope} (time : Nat)
    (ignoreLooping : Bool)
    (hevent : event ∈ s.arrivals id c ++ .reached id (.executed i) :: envelopes.map Event.sent) :
    (∀ j, (Beat.note time ignoreLooping event).executed? = some j → j = i) ∧
      (Beat.note time ignoreLooping event).ends = false := by
  rcases List.mem_append.1 hevent with hmem | hmem
  · have hquiet : (Beat.note time ignoreLooping event).Quiet :=
      Playhead.quiet_arrivals s id c event hmem
    refine ⟨fun j hj => ?_, hquiet.ends⟩
    rw [hquiet.executed?] at hj
    cases hj
  · rcases List.mem_cons.1 hmem with rfl | hmem
    · refine ⟨fun j hj => ?_, rfl⟩
      cases hj
      rfl
    · obtain ⟨envelope, -, rfl⟩ := List.mem_map.1 hmem
      exact ⟨nofun, rfl⟩

/-- Without pings, executing a command adds to the account what the command takes. -/
theorem charge_eq (hplain : program.Plain) (hcommand : program.commands[i]? = some c)
    (settings : Settings) (b : Nat) :
    ({ anchor := b, owed := program.heldBefore i, steady := true } : Account).charge program
        settings i =
      { anchor := b, owed := program.heldBefore (i + 1), steady := true } := by
  have hping := hplain.noPing c (List.mem_of_getElem? hcommand)
  rw [Program.heldBefore_succ hcommand]
  unfold Command.held
  cases hskips : c.directive.skipsWait with
  | true =>
    rw [Account.charge_of_skipsWait hcommand hskips, if_neg hping]
    rfl
  | false =>
    rw [Account.charge_of_not_skipsWait hcommand hskips, Duration.nanos_sub, Duration.nanos_zero,
      Nat.sub_zero]
    rfl

theorem following_eq (hplain : program.Plain) (hcommand : program.commands[i]? = some c)
    (ignoreLooping : Bool) : program.following ignoreLooping i = i + 1 :=
  Playhead.following_of_not_goesBack hcommand fun hback =>
    hplain.noLoop c (List.mem_of_getElem? hcommand) hback.1

/-- A region that is left now was left before, or everything in it is over now. -/
theorem leaves (h : Unbroken program settings story) (hblocks : program.Blocks)
    (hbegun : begunAt? story = some b)
    (htime : time = overAt b (program.heldBefore (nextIndex program story)))
    (hbeats : ∀ beat ∈ beats, beat.time = time)
    (hbeyond : ∀ beat ∈ beats, beat.beyond program r = true →
      ∀ d, program.commands[nextIndex program story]? = some d → r < d.region)
    {time' : Nat} (hleft : leftAt? program r (beats ++ story) = some time') :
    time' = overAt b (program.heldThrough r) := by
  rw [leftAt?_append] at hleft
  cases hbefore : leftAt? program r story with
  | some time'' =>
    rw [hbefore, Option.some_or] at hleft
    have hold := h.left r time'' hbefore
    rw [hbegun] at hold
    exact (Option.some.inj hleft).symm.trans (Option.some.inj hold).symm
  | none =>
    rw [hbefore, Option.none_or] at hleft
    obtain ⟨beat, hbeat, hnew, rfl⟩ := exists_of_leftAt? hleft
    rw [hbeats beat hbeat, htime,
      hblocks.heldBefore_eq (h.region_le hbefore) (hbeyond beat hbeat hnew)]

theorem execute (h : Unbroken program settings story) (hplain : program.Plain)
    (hblocks : program.Blocks) (hbegun : begunAt? story = some b) (hseek : s.pendingSeek = none)
    (hi : i = nextIndex program story) (hcommand : program.commands[i]? = some c)
    (htime : time = overAt b (program.heldBefore i)) (ignoreLooping : Bool) (id : SessionId)
    (envelopes : List Envelope) :
    Unbroken program settings (((s.arrivals id c ++ .reached id (.executed i) ::
      envelopes.map Event.sent).map (Beat.note time ignoreLooping)).reverse ++ story) := by
  have hbegun' : begunAt? (((s.arrivals id c ++ .reached id (.executed i) ::
      envelopes.map Event.sent).map (Beat.note time ignoreLooping)).reverse ++ story) = some b := by
    rw [begunAt?_notes, begins_execute]
    exact hbegun
  have hnext := nextIndex_execute program story time ignoreLooping s id c i envelopes
  rw [following_eq hplain hcommand] at hnext
  have harrive (a : Account) : a.arrive time s = a := by
    rw [Account.arrive, hseek]
    rfl
  refine ⟨fun hnone => ?_, ?_, ?_, ?_, ?_⟩
  · rw [hbegun'] at hnone
    cases hnone
  · rw [hbegun', hnext, account_notes, Account.foldl_execute, harrive, h.account_eq hbegun, ← hi]
    exact charge_eq hplain hcommand settings b
  · intro j hj
    rw [hnext] at hj
    rcases Nat.lt_succ_iff_lt_or_eq.1 hj with hlt | rfl
    · obtain ⟨beat, hbeat, hexecuted⟩ := h.reached j (hi ▸ hlt)
      exact ⟨beat, List.mem_append_right _ hbeat, hexecuted⟩
    · refine ⟨Beat.note time ignoreLooping (.reached id (.executed j)), ?_, rfl⟩
      apply List.mem_append_left
      rw [List.mem_reverse]
      exact List.mem_map_of_mem (List.mem_append_right _ List.mem_cons_self)
  · intro r time' hleft
    rw [hbegun']
    refine congrArg some (h.leaves hblocks hbegun (hi ▸ htime) ?_ ?_ hleft).symm
    · intro beat hbeat
      obtain ⟨event, -, rfl⟩ := Solo.Ordered.mem_notes hbeat
      rfl
    · intro beat hbeat hbeyond d hd
      obtain ⟨event, hevent, rfl⟩ := Solo.Ordered.mem_notes hbeat
      obtain ⟨hexecuted, hends⟩ := executed?_execute time ignoreLooping hevent
      rw [← hi] at hd
      unfold Beat.beyond at hbeyond
      rw [hends, Bool.false_or] at hbeyond
      obtain ⟨j, hj, hany⟩ := (Option.any_eq_true _ _).1 hbeyond
      rw [hexecuted j hj, hd] at hany
      exact of_decide_eq_true hany
  · intro beat hbeat hends
    rw [hbegun']
    rcases List.mem_append.1 hbeat with hmem | hmem
    · obtain ⟨event, hevent, rfl⟩ := Solo.Ordered.mem_notes hmem
      rw [(executed?_execute time ignoreLooping hevent).2] at hends
      cases hends
    · rw [← hbegun]
      exact h.ended beat hmem hends

theorem finish (h : Unbroken program settings story) (hblocks : program.Blocks)
    (hbegun : begunAt? story = some b)
    (hend : program.commands.length ≤ nextIndex program story)
    (htime : time = overAt b (program.heldBefore (nextIndex program story)))
    (ignoreLooping : Bool) (id : SessionId) :
    Unbroken program settings (Beat.note time ignoreLooping (.reached id .ended) :: story) where
  first := h.first
  account := h.account
  reached j hj := by
    obtain ⟨beat, hbeat, hexecuted⟩ := h.reached j hj
    exact ⟨beat, List.mem_cons_of_mem _ hbeat, hexecuted⟩
  left r time' hleft := by
    have hbegun' : begunAt? (Beat.note time ignoreLooping (.reached id .ended) :: story) = some b :=
      hbegun
    rw [hbegun']
    have hbeats : ∀ beat ∈ [Beat.note time ignoreLooping (.reached id .ended)], beat.time = time := by
      intro beat hbeat
      cases List.mem_singleton.1 hbeat
      rfl
    refine congrArg some (h.leaves hblocks hbegun htime hbeats ?_ hleft).symm
    intro _ _ _ d hd
    rw [List.getElem?_eq_none_iff.2 hend] at hd
    cases hd
  ended beat hbeat hends := by
    rcases List.mem_cons.1 hbeat with rfl | hmem
    · show (begunAt? story).map _ = some time
      rw [hbegun, htime, Program.heldBefore_of_length_le hend]
      rfl
    · exact h.ended beat hmem hends

end Unbroken

namespace Solo

variable {punctual : Prop} {solo : Solo}

theorem Run.blocks (run : Run punctual settings id story solo) : solo.session.program.Blocks := by
  induction run with
  | launched clock ignoreLooping start script lines =>
    obtain ⟨pendingSeek, epoch, hprepare⟩ := start.prepare_eq script lines
    rw [hprepare]
    exact Program.blocks_compile lines start.filter?
  | step run hstep ih =>
    rw [run.program_eq hstep]
    exact ih

theorem Run.time_le (run : Run punctual settings id story solo) :
    ∀ beat ∈ story, beat.time ≤ solo.clock := by
  induction run with
  | launched clock ignoreLooping start script lines =>
    intro beat hbeat
    cases List.mem_singleton.1 hbeat
    exact Nat.le_refl clock
  | @step story beats solo solo' run hstep ih =>
    intro beat hbeat
    cases hstep with
    | idle => exact ih beat hbeat
    | passed => exact (ih beat hbeat).trans (Nat.le_max_left _ _)
    | paused | resumed | sought | cancelled =>
      rcases List.mem_cons.1 hbeat with rfl | hmem
      · exact Nat.le_refl _
      · exact ih beat hmem
    | played =>
      rcases List.mem_append.1 hbeat with hmem | hmem
      · obtain ⟨event, -, rfl⟩ := Ordered.mem_notes hmem
        exact Nat.le_refl _
      · exact ih beat hmem

end Solo

end Story

end Choreo
