import Choreo.Policy

/-!
# Tickets for releases

Flags are armed, cleared and released in any order, and tickets for them are given out and redeemed in
between, stale ones and copies too. The generation of a flag grows with everything that no ticket
survives, so a ticket is worth something exactly as long as nothing of that kind has happened since it
was given out.
-/

namespace Choreo

namespace FlagState

theorem disarm_of_not_armed {f : FlagState} (harmed : f.armed = false) : f.disarm = f := by
  rw [disarm, harmed]
  rfl

theorem armed_disarm (f : FlagState) : f.disarm.armed = false := by
  unfold disarm
  split
  · rfl
  · next harmed => exact Bool.eq_false_iff.2 harmed

theorem generation_disarm_le (f : FlagState) :
    f.generation ≤ f.disarm.generation ∧ f.disarm.generation ≤ f.generation + 1 := by
  unfold disarm
  split <;> simp

end FlagState

namespace Policy

variable {p q : Policy} {flag : AutoFlag} {owner : SessionId} {ticket : Ticket}

theorem flag_arm (p : Policy) (f : AutoFlag) (owner : SessionId) (flag : AutoFlag) :
    (p.arm f owner).flag flag = if f = flag then (p.flag flag).arm owner else p.flag flag := by
  unfold arm
  split
  · next heq =>
    rw [heq]
    exact flag_setFlag_self p flag _
  · next hne => exact flag_setFlag_of_ne p _ (Ne.symm hne)

theorem flag_disarmAll (p : Policy) (flag : AutoFlag) :
    p.disarmAll.flag flag = (p.flag flag).disarm := by
  cases flag <;> rfl

theorem honours_iff :
    p.honours ticket = true ↔
      (p.flag ticket.flag).armed = true ∧ (p.flag ticket.flag).generation = ticket.generation := by
  rw [honours, Bool.and_eq_true, beq_iff_eq]

theorem ticket?_eq_some_iff :
    p.ticket? flag owner = some ticket ↔
      (p.flag flag).armed = true ∧ (p.flag flag).owner = some owner ∧
        ticket = ⟨flag, (p.flag flag).generation⟩ := by
  have hticket : p.ticket? flag owner =
      if (p.flag flag).armed = true ∧ (p.flag flag).owner = some owner then
        some ⟨flag, (p.flag flag).generation⟩ else none := rfl
  rw [hticket]
  split
  · next hown => simp [hown, eq_comm]
  · next hown =>
    simp only [reduceCtorEq, false_iff]
    exact fun hall => hown ⟨hall.1, hall.2.1⟩

theorem release_snd (p : Policy) (ticket : Ticket) : (p.release ticket).2 = p.honours ticket := by
  unfold release
  cases p.honours ticket <;> rfl

theorem flag_release (p : Policy) (ticket : Ticket) (flag : AutoFlag) :
    (p.release ticket).1.flag flag =
      if p.honours ticket = true ∧ ticket.flag = flag then (p.flag flag).disarm
      else p.flag flag := by
  unfold release
  by_cases hhonours : p.honours ticket = true
  · rw [if_pos hhonours]
    by_cases heq : ticket.flag = flag
    · rw [if_pos ⟨hhonours, heq⟩, heq]
      exact flag_setFlag_self p flag _
    · rw [if_neg fun hboth => heq hboth.2]
      exact flag_setFlag_of_ne p _ (Ne.symm heq)
  · rw [if_neg hhonours, if_neg fun hboth => hhonours hboth.1]

/-! ## Histories of the flags -/

inductive Act where
  | arm (flag : AutoFlag) (owner : SessionId)
  | disarmAll
  | issue (flag : AutoFlag) (owner : SessionId) (ticket : Option Ticket)
  | release (ticket : Ticket) (released : Bool)
deriving DecidableEq

namespace Act

def flag? : Act → Option AutoFlag
  | .arm flag _ | .issue flag _ _ => some flag
  | .disarmAll => none
  | .release ticket _ => some ticket.flag

/-- Whether no ticket for a flag survives an act. -/
def voids (flag : AutoFlag) : Act → Bool
  | .arm f _ => f = flag
  | .disarmAll => true
  | .issue _ _ _ => false
  | .release ticket released => ticket.flag = flag ∧ released = true

def turn (flag : AutoFlag) (act : Act) (state : FlagState) : FlagState :=
  match act with
  | .arm f owner => if f = flag then state.arm owner else state
  | .disarmAll => state.disarm
  | .issue _ _ _ => state
  | .release ticket released =>
    if released = true ∧ ticket.flag = flag then state.disarm else state

variable {act : Act}

theorem turn_of_not_voids (h : act.voids flag = false) (state : FlagState) :
    act.turn flag state = state := by
  cases act with
  | arm f owner => exact if_neg (of_decide_eq_false h)
  | disarmAll => cases h
  | issue => rfl
  | release ticket released => exact if_neg fun hboth => of_decide_eq_false h hboth.symm

theorem generation_turn_le (flag : AutoFlag) (act : Act) (state : FlagState) :
    state.generation ≤ (act.turn flag state).generation ∧
      (act.turn flag state).generation ≤ state.generation + 1 := by
  have hsame : state.generation ≤ state.generation ∧ state.generation ≤ state.generation + 1 :=
    ⟨Nat.le_refl _, Nat.le_succ _⟩
  cases act with
  | arm f owner =>
    by_cases heq : f = flag
    · rw [turn, if_pos heq]
      exact ⟨Nat.le_succ _, Nat.le_refl _⟩
    · rw [turn, if_neg heq]
      exact hsame
  | disarmAll => exact state.generation_disarm_le
  | issue => exact hsame
  | release ticket released =>
    by_cases hboth : released = true ∧ ticket.flag = flag
    · rw [turn, if_pos hboth]
      exact state.generation_disarm_le
    · rw [turn, if_neg hboth]
      exact hsame

/-- Clearing a flag that is not armed does not count, but then there is no ticket for it either. -/
theorem generation_lt_of_voids {state : FlagState} (harmed : state.armed = true)
    (h : act.voids flag = true) : state.generation < (act.turn flag state).generation := by
  have hdisarm : state.generation < state.disarm.generation := by
    rw [FlagState.disarm, if_pos harmed]
    exact Nat.lt_succ_self _
  cases act with
  | arm f owner =>
    rw [turn, if_pos (of_decide_eq_true h)]
    exact Nat.lt_succ_self _
  | disarmAll => exact hdisarm
  | issue => cases h
  | release ticket released =>
    rw [turn, if_pos (of_decide_eq_true h).symm]
    exact hdisarm

end Act

inductive Step (p : Policy) : Act → Policy → Prop where
  | arm (flag : AutoFlag) (owner : SessionId) : Step p (.arm flag owner) (p.arm flag owner)
  | disarmAll : Step p .disarmAll p.disarmAll
  | issue (flag : AutoFlag) (owner : SessionId) :
      Step p (.issue flag owner (p.ticket? flag owner)) p
  | release (ticket : Ticket) :
      Step p (.release ticket (p.release ticket).2) (p.release ticket).1

/-- The histories of a policy since it was made, the latest act first, and the policy after them. -/
inductive Run (settings : PlaybackSettings) : List Act → Policy → Prop where
  | start : Run settings [] (.ofSettings settings)
  | step {history : List Act} {p q : Policy} {act : Act}
      (run : Run settings history p) (hstep : Step p act q) : Run settings (act :: history) q

def stateAfter (flag : AutoFlag) (history : List Act) (state : FlagState) : FlagState :=
  history.foldr (Act.turn flag) state

theorem stateAfter_cons (flag : AutoFlag) (act : Act) (history : List Act) (state : FlagState) :
    stateAfter flag (act :: history) state = act.turn flag (stateAfter flag history state) := rfl

def lastArmedBy? (flag : AutoFlag) (history : List Act) : Option SessionId :=
  history.findSome? fun act =>
    match act with
    | .arm f owner => if f = flag then some owner else none
    | _ => none

variable {settings : PlaybackSettings} {history later earlier : List Act} {act : Act}

theorem Step.flag_eq (hstep : Step p act q) (flag : AutoFlag) :
    q.flag flag = act.turn flag (p.flag flag) := by
  cases hstep with
  | arm f owner => exact flag_arm p f owner flag
  | disarmAll => exact flag_disarmAll p flag
  | issue => rfl
  | release ticket =>
    rw [flag_release, release_snd]
    rfl

theorem Run.flag_eq (run : Run settings history p) (flag : AutoFlag) :
    p.flag flag = stateAfter flag history {} := by
  induction run with
  | start => cases flag <;> rfl
  | step run hstep ih =>
    rw [hstep.flag_eq, ih]
    rfl

theorem Run.cut (run : Run settings (later ++ act :: earlier) q) :
    ∃ p p', Run settings earlier p ∧ Step p act p' ∧
      ∀ flag, q.flag flag = stateAfter flag later (p'.flag flag) := by
  induction later generalizing q with
  | nil =>
    cases run with
    | step run hstep => exact ⟨_, _, run, hstep, fun _ => rfl⟩
  | cons _ later ih =>
    cases run with
    | step run hstep =>
      obtain ⟨p, p', hrun, hstep', hflag⟩ := ih run
      refine ⟨p, p', hrun, hstep', fun flag => ?_⟩
      rw [hstep.flag_eq, hflag]
      rfl

/-! ## What a history makes of a flag -/

section StateAfter

variable {state : FlagState}

theorem stateAfter_of_not_voids (h : ∀ act ∈ history, act.voids flag = false) :
    stateAfter flag history state = state := by
  induction history with
  | nil => rfl
  | cons act history ih =>
    rw [stateAfter_cons, Act.turn_of_not_voids (h act List.mem_cons_self)]
    exact ih fun act' hact' => h act' (List.mem_cons_of_mem _ hact')

theorem generation_stateAfter_le (flag : AutoFlag) (history : List Act) (state : FlagState) :
    state.generation ≤ (stateAfter flag history state).generation ∧
      (stateAfter flag history state).generation ≤ state.generation + history.length := by
  induction history with
  | nil => exact ⟨Nat.le_refl _, Nat.le_refl _⟩
  | cons act history ih =>
    have hturn := act.generation_turn_le flag (stateAfter flag history state)
    rw [stateAfter_cons, List.length_cons]
    omega

/-- What voids the tickets of an armed flag moves it on to a generation that it does not come back
from. -/
theorem generation_lt_stateAfter (harmed : state.armed = true)
    (h : ∃ act ∈ history, act.voids flag = true) :
    state.generation < (stateAfter flag history state).generation := by
  induction history with
  | nil =>
    obtain ⟨act, hmem, -⟩ := h
    cases hmem
  | cons act history ih =>
    rw [stateAfter_cons]
    by_cases hearlier : ∃ act ∈ history, act.voids flag = true
    · exact Nat.lt_of_lt_of_le (ih hearlier) (act.generation_turn_le flag _).1
    · have hsame : stateAfter flag history state = state :=
        stateAfter_of_not_voids fun act' hact' =>
          Bool.eq_false_iff.2 fun hvoids => hearlier ⟨act', hact', hvoids⟩
      obtain ⟨act', hmem, hvoids⟩ := h
      rcases List.mem_cons.1 hmem with rfl | hmem
      · rw [hsame]
        exact Act.generation_lt_of_voids harmed hvoids
      · exact absurd ⟨act', hmem, hvoids⟩ hearlier

theorem armed_stateAfter_iff (flag : AutoFlag) (history : List Act) :
    (stateAfter flag history {}).armed = true ↔
      ∃ owner, history.find? (·.voids flag) = some (.arm flag owner) := by
  induction history with
  | nil => simp [stateAfter]
  | cons act history ih =>
    rw [stateAfter_cons, List.find?_cons]
    cases hvoids : act.voids flag with
    | false => rw [Act.turn_of_not_voids hvoids, ih]
    | true =>
      cases act with
      | arm f owner =>
        obtain rfl : f = flag := of_decide_eq_true hvoids
        simp [Act.turn, FlagState.arm]
      | disarmAll => simp [Act.turn, FlagState.armed_disarm]
      | issue => cases hvoids
      | release ticket released =>
        have hboth := (of_decide_eq_true hvoids).symm
        simp [Act.turn, hboth, FlagState.armed_disarm]

theorem owner_stateAfter (harmed : (stateAfter flag history {}).armed = true) :
    (stateAfter flag history {}).owner = lastArmedBy? flag history := by
  induction history with
  | nil => cases harmed
  | cons act history ih =>
    rw [stateAfter_cons] at harmed ⊢
    rw [lastArmedBy?, List.findSome?_cons]
    cases act with
    | arm f owner =>
      by_cases heq : f = flag
      · simp [Act.turn, heq, FlagState.arm]
      · simp only [Act.turn, if_neg heq] at harmed ⊢
        exact ih harmed
    | disarmAll =>
      simp only [Act.turn, FlagState.armed_disarm] at harmed
      cases harmed
    | issue => exact ih harmed
    | release ticket released =>
      by_cases hboth : released = true ∧ ticket.flag = flag
      · rw [Act.turn, if_pos hboth, FlagState.armed_disarm] at harmed
        cases harmed
      · rw [Act.turn, if_neg hboth] at harmed ⊢
        exact ih harmed

end StateAfter

/-! ## What tickets are worth -/

theorem Step.eq_of_issue {given : Option Ticket} (hstep : Step p (.issue flag owner given) q) :
    q = p ∧ p.ticket? flag owner = given := by
  cases hstep
  exact ⟨rfl, rfl⟩

theorem Step.honours_of_released (hstep : Step p (.release ticket true) q) :
    p.honours ticket = true := by
  generalize hact : Act.release ticket true = act at hstep
  cases hstep with
  | release ticket' =>
    obtain ⟨rfl, hreleased⟩ := Act.release.inj hact
    rw [← release_snd, ← hreleased]
  | _ => cases hact

theorem Run.generation_lt_of_released (run : Run settings history p)
    (h : .release ticket true ∈ history) : ticket.generation < (p.flag ticket.flag).generation := by
  obtain ⟨later, earlier, rfl⟩ := List.append_of_mem h
  obtain ⟨before, after, -, hstep, hflag⟩ := run.cut
  obtain ⟨harmed, hgeneration⟩ := honours_iff.1 hstep.honours_of_released
  have hgrows : (before.flag ticket.flag).generation < (after.flag ticket.flag).generation := by
    rw [hstep.flag_eq ticket.flag]
    exact Act.generation_lt_of_voids harmed (by simp [Act.voids])
  have hlater := (generation_stateAfter_le ticket.flag later (after.flag ticket.flag)).1
  rw [hflag]
  omega

theorem Run.count_released_le (run : Run settings history p) (ticket : Ticket) :
    history.count (.release ticket true) ≤ 1 := by
  induction run with
  | start => exact Nat.zero_le 1
  | @step history p q act run hstep ih =>
    rw [List.count_cons]
    by_cases hact : act = .release ticket true
    · have hfirst : .release ticket true ∉ history := by
        intro hmem
        have hover := run.generation_lt_of_released hmem
        rw [hact] at hstep
        have hgeneration := (honours_iff.1 hstep.honours_of_released).2
        omega
      rw [List.count_eq_zero_of_not_mem hfirst]
      split <;> decide
    · rw [if_neg (by simpa using hact)]
      exact ih

theorem Run.release_iff (run : Run settings (later ++ .issue flag owner (some ticket) :: earlier) p) :
    (p.release ticket).2 = true ↔ ∀ act ∈ later, act.voids flag = false := by
  obtain ⟨before, after, -, hstep, hlater⟩ := run.cut
  obtain ⟨rfl, hgiven⟩ := hstep.eq_of_issue
  obtain ⟨harmed, -, rfl⟩ := ticket?_eq_some_iff.1 hgiven
  rw [release_snd, honours_iff]
  simp only
  rw [hlater flag]
  constructor
  · rintro ⟨-, hgeneration⟩ act hact
    refine Bool.eq_false_iff.2 fun hvoids => ?_
    have hover := generation_lt_stateAfter harmed ⟨act, hact, hvoids⟩
    omega
  · intro hkept
    rw [stateAfter_of_not_voids hkept]
    exact ⟨harmed, rfl⟩

theorem Step.flag_of_other {other : AutoFlag} (hstep : Step p act q) (hother : act.flag? = some other)
    (hne : other ≠ flag) : q.flag flag = p.flag flag := by
  rw [hstep.flag_eq]
  refine Act.turn_of_not_voids ?_ _
  cases act with
  | arm f owner =>
    obtain rfl : f = other := Option.some.inj hother
    exact decide_eq_false hne
  | disarmAll => cases hother
  | issue => rfl
  | release ticket released =>
    obtain rfl : ticket.flag = other := Option.some.inj hother
    exact decide_eq_false fun hboth => hne hboth.1

/-- A flag is armed if and only if it was armed after all that clears it, and then a ticket for it is
given out to whoever armed it last. The ticket releases the flag if and only if the flag was neither
armed nor cleared nor released since then, and a ticket that fails changes nothing. No ticket succeeds
twice, and what is done about one flag alone does not change the other. A generation is at most the
number of acts, so it does not overflow before they do. -/
theorem Run.tickets_are_good_once (run : Run settings history p) (flag : AutoFlag) :
    (p.isArmed flag = true ↔
        ∃ owner, history.find? (·.voids flag) = some (.arm flag owner)) ∧
      (∀ owner, ((∃ ticket, p.ticket? flag owner = some ticket) ↔
          p.isArmed flag = true ∧ lastArmedBy? flag history = some owner) ∧
        ∀ ticket, p.ticket? flag owner = some ticket → ticket.flag = flag) ∧
      (∀ later owner ticket earlier,
        history = later ++ .issue flag owner (some ticket) :: earlier →
        ((p.release ticket).2 = true ↔ ∀ act ∈ later, act.voids flag = false)) ∧
      (∀ ticket,
        ((p.release ticket).2 = true → (p.release ticket).1.isArmed ticket.flag = false) ∧
        ((p.release ticket).2 = false → (p.release ticket).1 = p)) ∧
      (∀ ticket, history.count (.release ticket true) ≤ 1) ∧
      (∀ act q other, Step p act q → act.flag? = some other → other ≠ flag →
        q.flag flag = p.flag flag) ∧
      (p.flag flag).generation ≤ history.length := by
  have harmed : p.isArmed flag = (stateAfter flag history {}).armed := by
    rw [isArmed, run.flag_eq]
  refine ⟨?_, fun owner => ⟨?_, fun ticket hgiven => ?_⟩, ?_, fun ticket => ⟨fun hreleased => ?_, ?_⟩,
    run.count_released_le, fun act q other hstep => hstep.flag_of_other, ?_⟩
  · rw [harmed, armed_stateAfter_iff]
  · rw [harmed]
    simp only [ticket?_eq_some_iff, run.flag_eq]
    constructor
    · rintro ⟨_, harmed, howner, -⟩
      exact ⟨harmed, (owner_stateAfter harmed).symm.trans howner⟩
    · rintro ⟨harmed, howner⟩
      exact ⟨_, harmed, (owner_stateAfter harmed).trans howner, rfl⟩
  · rw [(ticket?_eq_some_iff.1 hgiven).2.2]
  · rintro later owner ticket earlier rfl
    exact run.release_iff
  · rw [release_snd] at hreleased
    rw [isArmed, flag_release, if_pos ⟨hreleased, rfl⟩]
    exact FlagState.armed_disarm _
  · intro hfailed
    rw [release_snd] at hfailed
    rw [release, hfailed]
    rfl
  · have hle := (generation_stateAfter_le flag history {}).2
    rw [run.flag_eq]
    exact Nat.le_trans hle (Nat.le_of_eq (Nat.zero_add _))

/-- The flag is cleared and armed by the same session again, so that there are two tickets. -/
def reissued : List Act :=
  [.release ⟨.busy, 1⟩ false, .issue .busy ⟨1⟩ (some ⟨.busy, 3⟩), .arm .busy ⟨1⟩, .disarmAll,
    .arm .mare ⟨2⟩, .issue .busy ⟨1⟩ (some ⟨.busy, 1⟩), .arm .busy ⟨1⟩]

theorem run_reissued :
    Run {} reissued
      ((((Policy.ofSettings {}).arm .busy ⟨1⟩).arm .mare ⟨2⟩).disarmAll.arm .busy ⟨1⟩) := by
  have hfirst := (((@Run.start {}).step (.arm .busy ⟨1⟩)).step (.issue .busy ⟨1⟩)).step
    (.arm .mare ⟨2⟩)
  have hsecond := ((hfirst.step .disarmAll).step (.arm .busy ⟨1⟩)).step (.issue .busy ⟨1⟩)
  exact hsecond.step (.release ⟨.busy, 1⟩)

theorem tickets_are_good_once_reissued :
    ∃ p, Run {} reissued p ∧ p.isArmed .busy = true ∧ p.isArmed .mare = false ∧
      (∃ ticket, p.ticket? .busy ⟨1⟩ = some ticket) ∧ p.ticket? .busy ⟨2⟩ = none ∧
      (p.release ⟨.busy, 1⟩).2 = false ∧ (p.release ⟨.busy, 3⟩).2 = true := by
  obtain ⟨hbusy, hgiven, hreleases, -⟩ := run_reissued.tickets_are_good_once .busy
  obtain ⟨hmare, -⟩ := run_reissued.tickets_are_good_once .mare
  have harmed := hbusy.2 ⟨⟨1⟩, by decide⟩
  refine ⟨_, run_reissued, harmed, ?_, (hgiven ⟨1⟩).1.2 ⟨harmed, by decide⟩, ?_, ?_, ?_⟩
  · refine Bool.eq_false_iff.2 fun hset => ?_
    obtain ⟨owner, hlast⟩ := hmare.1 hset
    exact absurd hlast (by simp [reissued, Act.voids])
  · refine Option.eq_none_iff_forall_ne_some.2 fun ticket hother => ?_
    obtain ⟨-, howner⟩ := (hgiven ⟨2⟩).1.1 ⟨ticket, hother⟩
    exact absurd howner (by decide)
  · refine Bool.eq_false_iff.2 fun hreleased => ?_
    have hkept := (hreleases (reissued.take 5) ⟨1⟩ ⟨.busy, 1⟩ (reissued.drop 6) rfl).1 hreleased
    exact absurd (hkept .disarmAll (by decide)) (by decide)
  · exact (hreleases (reissued.take 1) ⟨1⟩ ⟨.busy, 3⟩ (reissued.drop 2) rfl).2 (by decide)

end Policy

end Choreo
