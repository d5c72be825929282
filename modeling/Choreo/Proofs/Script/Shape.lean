import Choreo.Proofs.Script.Language

/-!
# The shape of programs

The commands of a program stand in the order of their lines, and none of its regions is empty. So the
line that a region starts at tells its first command from the others.
-/

namespace Choreo

def Program.startOf? (program : Program) (region : Nat) : Option Nat :=
  program.regions[region]?.map Region.startLine

structure Program.Shaped (program : Program) : Prop where
  ordered : program.commands.Pairwise (·.line < ·.line)
  within : ∀ c ∈ program.commands, ∃ first, program.startOf? c.region = some first ∧ first ≤ c.line
  starts : ∀ region first, program.startOf? region = some first →
    ∃ c ∈ program.commands, c.region = region ∧ c.line = first

structure Reading.Shaped (r : Reading) (number : Nat) : Prop extends r.program.Shaped where
  before : ∀ c ∈ r.program.commands, c.line < number
  opened : r.fresh = false → r.program.regions ≠ []

namespace Reading

variable {r r' : Reading} {filter : Option String} {number : Nat}

/-- The position of the region that the next command belongs to. -/
def regionAt (r : Reading) : Nat :=
  if r.fresh then r.program.regions.length else r.program.regions.length - 1

theorem command_commands (r : Reading) (line : Nat) (text : List Char) (wait : Duration) :
    (r.command line text wait).program.commands =
      r.program.commands ++
        [{ text := String.ofList text, line, region := r.regionAt, wait,
           directive := .classify text }] := by
  unfold command regionAt
  cases r.fresh <;> simp

namespace Shaped

theorem startOf?_lt (h : r.Shaped number) {region first : Nat}
    (hstart : r.program.startOf? region = some first) : first < number := by
  obtain ⟨c, hc, -, hline⟩ := h.starts region first hstart
  exact hline ▸ h.before c hc

/-- A command starts the region that it opens. The other regions start where they did. -/
theorem startOf?_command (h : r.Shaped number) (text : List Char) (wait : Duration)
    (region : Nat) :
    (r.command number text wait).program.startOf? region =
      if r.fresh ∧ region = r.program.regions.length then some number
      else r.program.startOf? region := by
  unfold command Program.startOf?
  cases r.fresh with
  | true =>
    simp only [if_true, List.length_append, List.length_singleton, Nat.add_sub_cancel, true_and,
      List.getElem?_modify]
    by_cases hnew : region = r.program.regions.length
    · rw [if_pos hnew, hnew, List.getElem?_concat_length]
      cases r.heading <;> simp [Region.absorb, Region.start]
    · simp only [if_neg hnew, if_neg (Ne.symm hnew), List.getElem?_append]
      split
      · simp
      · have hbeyond : r.program.regions.length < region := by omega
        rw [List.getElem?_eq_none (Nat.le_of_lt hbeyond),
          List.getElem?_eq_none (by rw [List.length_singleton]; omega)]
        rfl
  | false =>
    simp only [Bool.false_eq_true, if_false, false_and, List.getElem?_modify]
    cases hold : r.program.regions[region]? with
    | none => rfl
    | some old =>
      have hstart : r.program.startOf? region = some old.startLine := by
        rw [Program.startOf?, hold]
        rfl
      simp only [Option.map_eq_map, Option.map_some, Option.some.injEq]
      split
      · exact Nat.min_eq_left (Nat.le_of_lt (h.startOf?_lt hstart))
      · rfl

/-- The region of the next command has started, or starts with it. -/
theorem exists_startOf? (h : r.Shaped number) (text : List Char) (wait : Duration) :
    ∃ first, (r.command number text wait).program.startOf? r.regionAt = some first ∧
      first ≤ number := by
  rw [h.startOf?_command]
  unfold regionAt
  cases hfresh : r.fresh with
  | true => exact ⟨number, by simp, Nat.le_refl _⟩
  | false =>
    have hopened : r.program.regions.length - 1 < r.program.regions.length := by
      have hpos := List.length_pos_of_ne_nil (h.opened hfresh)
      omega
    have hstart : r.program.startOf? (r.program.regions.length - 1) =
        some r.program.regions[r.program.regions.length - 1].startLine := by
      rw [Program.startOf?, List.getElem?_eq_getElem hopened]
      rfl
    refine ⟨_, ?_, Nat.le_of_lt (h.startOf?_lt hstart)⟩
    simpa using hstart

theorem command (h : r.Shaped number) (text : List Char) (wait : Duration) :
    (r.command number text wait).Shaped (number + 1) := by
  have hstart := h.startOf?_command text wait
  have hkept {region first : Nat} (hold : r.program.startOf? region = some first) :
      (r.command number text wait).program.startOf? region = some first := by
    rw [hstart, if_neg, hold]
    rintro ⟨-, rfl⟩
    simp [Program.startOf?] at hold
  refine { ordered := ?_, within := ?_, starts := ?_, before := ?_, opened := ?_ }
  · rw [command_commands, List.pairwise_append]
    refine ⟨h.ordered, List.pairwise_singleton _ _, fun c hc d hd => ?_⟩
    rw [List.mem_singleton.1 hd]
    exact h.before c hc
  · intro c hc
    rw [command_commands] at hc
    rcases List.mem_append.1 hc with hold | hnew
    · obtain ⟨first, hfirst, hle⟩ := h.within c hold
      exact ⟨first, hkept hfirst, hle⟩
    · rw [List.mem_singleton.1 hnew]
      exact h.exists_startOf? text wait
  · intro region first hfirst
    rw [command_commands]
    rw [hstart] at hfirst
    split at hfirst
    · next hnew =>
      cases hfirst
      refine ⟨_, List.mem_append_right _ (List.mem_singleton_self _), ?_, rfl⟩
      rw [regionAt, if_pos hnew.1]
      exact hnew.2.symm
    · obtain ⟨c, hc, hregion, hline⟩ := h.starts region first hfirst
      exact ⟨c, List.mem_append_left _ hc, hregion, hline⟩
  · intro c hc
    rw [command_commands] at hc
    rcases List.mem_append.1 hc with hold | hnew
    · exact Nat.lt_succ_of_lt (h.before c hold)
    · rw [List.mem_singleton.1 hnew]
      exact Nat.lt_succ_self number
  · intro _ hnone
    obtain ⟨first, hfirst, -⟩ := h.exists_startOf? text wait
    rw [Program.startOf?, hnone] at hfirst
    cases hfirst

theorem next (h : r.Shaped number) (hprogram : r'.program = r.program)
    (hfresh : r'.fresh = false → r.fresh = false) : r'.Shaped (number + 1) := by
  obtain ⟨hshaped, hbefore, hopened⟩ := h
  rw [← hprogram] at hshaped hbefore hopened
  exact ⟨hshaped, fun c hc => Nat.lt_succ_of_lt (hbefore c hc), fun hopen => hopened (hfresh hopen)⟩

theorem line (h : r.Shaped number) (filter : Option String) (line : String) :
    (r.line filter number line).Shaped (number + 1) := by
  unfold Reading.line
  simp only
  split
  · exact h.next rfl id
  · exact h.next rfl fun hfresh => by cases hfresh
  · exact h.next rfl fun hfresh => by cases hfresh
  · split
    · unfold Reading.content
      split
      · exact h.next rfl id
      · exact h.command _ _
    · exact h.next rfl id

theorem of_lines (filter : Option String) (lines : List String) :
    (({} : Reading).lines filter 1 lines).Shaped (lines.length + 1) := by
  induction lines using List.reverseRecOn with
  | nil =>
    refine ⟨⟨.nil, ?_, ?_⟩, ?_, ?_⟩
    · intro c hc
      cases hc
    · intro region first hfirst
      cases hfirst
    · intro c hc
      cases hc
    · intro hfresh
      cases hfresh
  | append_singleton lines line ih =>
    rw [Language.readingLines_concat, Nat.add_comm, List.length_append]
    exact ih.line filter line

end Shaped

end Reading

namespace Program

variable {program : Program} {i : Nat} {c : Command} {region : Region}

theorem shaped_compile (lines : List String) (filter : Option String) :
    (compile lines filter).Shaped :=
  (Reading.Shaped.of_lines (Heading.filter? filter) lines).toShaped

theorem Shaped.exists_regionOf? (h : program.Shaped) (hcommand : program.commands[i]? = some c) :
    ∃ region, program.regions[c.region]? = some region := by
  obtain ⟨first, hfirst, -⟩ := h.within c (List.mem_of_getElem? hcommand)
  obtain ⟨region, hregion, -⟩ := Option.map_eq_some_iff.1 hfirst
  exact ⟨region, hregion⟩

theorem Shaped.line_lt (h : program.Shaped) {j : Nat} {d : Command} (hij : i < j)
    (hc : program.commands[i]? = some c) (hd : program.commands[j]? = some d) : c.line < d.line := by
  obtain ⟨hi, rfl⟩ := List.getElem?_eq_some_iff.1 hc
  obtain ⟨hj, rfl⟩ := List.getElem?_eq_some_iff.1 hd
  exact List.pairwise_iff_getElem.1 h.ordered i j hi hj hij

/-- The line of a command is the one that its region starts at if and only if no command before it
belongs to the region. -/
theorem Shaped.line_eq_startLine_iff (h : program.Shaped) (hcommand : program.commands[i]? = some c)
    (hregion : program.regions[c.region]? = some region) :
    c.line = region.startLine ↔
      ∀ j < i, ∀ d, program.commands[j]? = some d → d.region ≠ c.region := by
  have hstart : program.startOf? c.region = some region.startLine := by
    rw [startOf?, hregion]
    rfl
  constructor
  · intro hline j hj d hd hsame
    obtain ⟨first, hfirst, hle⟩ := h.within d (List.mem_of_getElem? hd)
    have hbefore := h.line_lt hj hd hcommand
    rw [hsame, hstart] at hfirst
    cases hfirst
    omega
  · intro hfirst
    obtain ⟨d, hd, hsame, hline⟩ := h.starts c.region region.startLine hstart
    obtain ⟨j, hj⟩ := List.getElem?_of_mem hd
    rcases Nat.lt_trichotomy j i with hlt | rfl | hgt
    · exact absurd hsame (hfirst j hlt d hj)
    · rw [hcommand] at hj
      rw [Option.some.inj hj, hline]
    · obtain ⟨first, hwithin, hle⟩ := h.within c (List.mem_of_getElem? hcommand)
      have hafter := h.line_lt hgt hcommand hj
      rw [hstart] at hwithin
      cases hwithin
      omega

end Program

end Choreo
