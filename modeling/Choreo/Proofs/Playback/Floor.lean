import Choreo.Proofs.Playback.Shared

/-!
# Cooperative scheduling

Where a playhead gives way to others it sleeps or lets them go first, and it never does on its way to a
command. So there is at most one that is on its way, and it comes before all others in the queue.
Playing in the order of the queue is therefore cooperative, as long as nothing is asked for before the
playhead has come to a place where it waits.
-/

namespace Choreo

namespace Playhead

variable {h head : Playhead} {v : Surroundings} {s : Session}

theorem stage_of_sleep {duration : Duration} (hnext : (h.step v s).next = .sleep duration head) :
    head.stage ≠ .opening ∧ head.stage ≠ .turn := by
  have houtcome := h.step_outcome v s
  generalize h.step v s = move at houtcome hnext
  cases houtcome with
  | held =>
    simp only at hnext
    unfold Playhead.waiting at hnext
    split at hnext
    · cases hnext
      exact ⟨by simp, by simp⟩
    · cases hnext
  | resting | suspended | waited =>
    cases hnext
    exact ⟨by simp, by simp⟩
  | _ => cases hnext

theorem stage_of_yield (hnext : (h.step v s).next = .yield head) : head.stage = .pass := by
  have houtcome := h.step_outcome v s
  generalize h.step v s = move at houtcome hnext
  cases houtcome with
  | held =>
    simp only at hnext
    unfold Playhead.waiting at hnext
    split at hnext
    · cases hnext
    · cases hnext
      rfl
  | _ => cases hnext

end Playhead

namespace Playback

variable {punctual : Prop} {settings : Settings} {history : List Occurrence}
variable {p q : Playback} {act : Act} {task other : Task} {sleeper : Sleeper}

/-! ## Tasks that are not on their way -/

theorem not_underway_of_mem_taskBack (hmem : other ∈ p.taskBack task) : other.underway = false := by
  cases task with
  | play id head =>
    simp only [taskBack] at hmem
    split at hmem
    · cases hmem
    · next s _ =>
      rcases List.mem_append.1 hmem with hpad | hback
      · obtain ⟨padding, rfl⟩ := Effect.eq_pad_of_mem hpad
        rfl
      · cases hnext : (head.step p.surroundings s).next with
        | yield head' =>
          rw [hnext] at hback
          obtain rfl := List.mem_singleton.1 hback
          simp [Task.underway, Playhead.stage_of_yield hnext]
        | _ =>
          rw [hnext] at hback
          cases hback
  | _ => cases hmem

theorem not_underway_of_mem_taskSleepers (hmem : sleeper ∈ p.taskSleepers task) :
    sleeper.task.underway = false := by
  cases task with
  | play id head =>
    simp only [taskSleepers] at hmem
    split at hmem
    · cases hmem
    · next s _ =>
      rcases List.mem_append.1 hmem with hcountdown | hnext
      · obtain ⟨lead, offset, rfl⟩ := Effect.eq_countdown_of_mem hcountdown
        rfl
      · cases hmove : (head.step p.surroundings s).next with
        | sleep duration head' =>
          rw [hmove] at hnext
          obtain rfl := List.mem_singleton.1 hnext
          simp [Task.underway, Playhead.stage_of_sleep hmove]
        | ended =>
          rw [hmove] at hnext
          obtain ⟨flag, ticket, -, rfl⟩ := eq_release_of_mem hnext
          rfl
        | _ =>
          rw [hmove] at hnext
          cases hnext
  | pad id payload left =>
    cases left with
    | zero => cases hmem
    | succ left =>
      simp only [taskSleepers] at hmem
      split at hmem
      · cases hmem
      · split at hmem
        · cases hmem
        · obtain rfl := List.mem_singleton.1 hmem
          rfl
  | _ => cases hmem

theorem length_taskFront_le (p : Playback) (task : Task) : (p.taskFront task).length ≤ 1 := by
  cases task with
  | play id head =>
    simp only [taskFront]
    split
    · exact Nat.zero_le 1
    · next s _ => cases (head.step p.surroundings s).next <;> simp [Next.front]
  | _ => exact Nat.zero_le 1

/-! ## The one that is -/

/-- Only the first task that may go on is ever on its way, and none of those that sleep. -/
structure Seated (p : Playback) : Prop where
  ready : ∀ task ∈ p.ready.tail, task.underway = false
  sleepers : ∀ sleeper ∈ p.sleepers, sleeper.task.underway = false

/-- Who takes the floor and is not on its way finds nobody on its way. -/
theorem KeepsFloor.not_underway (hfloor : p.KeepsFloor act)
    (hact : ∀ task, act = .run task → task.underway = false) :
    ∀ task ∈ p.ready, task.underway = false := by
  intro task hmem
  cases hunderway : task.underway with
  | false => rfl
  | true =>
    rw [hact task (hfloor task hmem hunderway)] at hunderway
    cases hunderway

theorem Seated.not_underway_take {before after : List Task} (h : p.Seated)
    (hready : p.ready = before ++ task :: after) (hfloor : p.KeepsFloor (.run task)) :
    ∀ other ∈ before ++ after, other.underway = false := by
  intro other hmem
  cases hunderway : task.underway with
  | true =>
    cases before with
    | nil =>
      have htail : p.ready.tail = after := by rw [hready]; rfl
      exact h.ready other (htail ▸ hmem)
    | cons first before =>
      have htail : task ∈ p.ready.tail := by simp [hready]
      rw [h.ready task htail] at hunderway
      cases hunderway
  | false =>
    have hnone := hfloor.not_underway fun task' hact => by
      cases hact
      exact hunderway
    refine hnone other ?_
    rw [hready]
    rcases List.mem_append.1 hmem with hbefore | hafter
    · exact List.mem_append_left _ hbefore
    · exact List.mem_append_right _ (List.mem_cons_of_mem _ hafter)

theorem mem_tail_append {front rest : List Task} (hfront : front.length ≤ 1)
    (hmem : other ∈ (front ++ rest).tail) : other ∈ rest := by
  cases front with
  | nil => exact List.mem_of_mem_tail hmem
  | cons first front =>
    have hnil : front = [] := List.eq_nil_of_length_eq_zero (by simpa using hfront)
    rw [hnil] at hmem
    exact hmem

theorem Step.seated (hstep : Step punctual p act q) (hfloor : p.KeepsFloor act) (h : p.Seated) :
    q.Seated := by
  cases hstep with
  | serve request =>
    have hnone := hfloor.not_underway fun task hact => by cases hact
    rcases p.serve_cases request with ⟨script, start, lines, -, hserve⟩ | ⟨_, _, _, _, hserve⟩
    · rw [hserve]
      refine ⟨fun task hmem => ?_, h.sleepers⟩
      rcases List.mem_append.1 (List.mem_of_mem_tail hmem) with hold | hnew
      · exact hnone task hold
      · obtain rfl := List.mem_singleton.1 hnew
        rfl
    · rw [hserve]
      exact ⟨h.ready, h.sleepers⟩
  | @run before after task hready =>
    have hrest := h.not_underway_take hready hfloor
    rw [runTask_take_eq]
    refine ⟨fun other hmem => ?_, fun sleeper hmem => ?_⟩
    · simp only [List.append_assoc] at hmem
      rcases List.mem_append.1 (mem_tail_append (p.length_taskFront_le task) hmem) with
        hbefore | hlater
      · exact hrest other (List.mem_append_left _ hbefore)
      · rcases List.mem_append.1 hlater with hafter | hback
        · exact hrest other (List.mem_append_right _ hafter)
        · exact not_underway_of_mem_taskBack hback
    · rcases List.mem_append.1 hmem with hold | hnew
      · exact h.sleepers sleeper hold
      · exact not_underway_of_mem_taskSleepers hnew
  | @pass time =>
    have hnone := hfloor.not_underway fun task hact => by cases hact
    refine ⟨fun task hmem => ?_, fun sleeper hmem => ?_⟩
    · rcases List.mem_append.1 (List.mem_of_mem_tail hmem) with hold | hwoken
      · exact hnone task hold
      · obtain ⟨sleeper, hsleeper, rfl⟩ := List.mem_map.1 hwoken
        exact h.sleepers sleeper (List.mem_filter.1 hsleeper).1
    · exact h.sleepers sleeper (List.mem_filter.1 hmem).1

theorem CooperativeRun.seated (run : CooperativeRun punctual settings history p) : p.Seated := by
  induction run with
  | start => exact ⟨nofun, nofun⟩
  | step _ hstep hfloor ih => exact hstep.seated hfloor ih

/-! ## Playing in a fixed order -/

theorem Seated.keepsFloor (h : p.Seated) : p.KeepsFloor p.nextAct := by
  intro task hmem hunderway
  unfold nextAct
  cases hready : p.ready with
  | nil =>
    rw [hready] at hmem
    cases hmem
  | cons first rest =>
    rw [hready] at hmem
    rcases List.mem_cons.1 hmem with rfl | hrest
    · rfl
    · have htail : task ∈ p.ready.tail := by rw [hready]; exact hrest
      rw [h.ready task htail] at hunderway
      cases hunderway

namespace CooperativeRun

theorem follow (run : CooperativeRun punctual settings history p) (limit : Playback → Nat)
    (fuel : Nat) : CooperativeRun punctual settings (follow limit fuel history p).1
      (follow limit fuel history p).2 := by
  fun_induction Playback.follow limit fuel history p with
  | case1 => exact run
  | case2 => exact run
  | case3 history p fuel q h ih => exact ih (run.step (step_of_next? h) run.seated.keepsFloor)

variable {played : List Occurrence × Playback}

theorem ask (run : CooperativeRun punctual settings played.1 played.2) (request : Request)
    (hnone : ∀ task ∈ played.2.ready, task.underway = false) :
    CooperativeRun punctual settings (ask request played).1 (ask request played).2 := by
  refine run.step (.serve request) fun task hmem hunderway => ?_
  rw [hnone task hmem] at hunderway
  cases hunderway

theorem wait (run : CooperativeRun punctual settings played.1 played.2) (time : Nat)
    (htime : played.2.OnTime time) :
    CooperativeRun punctual settings (wait time played).1 (wait time played).2 := by
  refine run.step (.pass fun _ => htime) fun task hmem => ?_
  rw [htime.1] at hmem
  cases hmem

end CooperativeRun

end Playback

end Choreo
